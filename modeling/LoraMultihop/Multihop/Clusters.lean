/- digest: What the nodes of one superframe know of each other's clusters, kept by every step. -/

import LoraMultihop.Foundation.Soup
import LoraMultihop.Multihop.Advertise

set_option autoImplicit false
set_option relaxedAutoImplicit false

namespace LoraMultihop.Multihop.Clusters

open LoraMultihop.Foundation.ByteMemory (Bytes)
open LoraMultihop.Foundation.Soup
open LoraMultihop.Net.Params
open LoraMultihop.Link
open LoraMultihop.Multihop.Messages
open LoraMultihop.Multihop.State
open LoraMultihop.Multihop.Sending
open LoraMultihop.Multihop.Discovery
open LoraMultihop.Multihop.Advertise

/-- Every node runs `do_advertise`; a step sends the messages of its frames. -/
def machine : Machine Proc Input Bytes where
  step inp p := ((step inp p).1, (step inp p).2.flatMap Queue.Frame.msgs)
  heard := Input.heard
  enabled _ _ := True

def Reads (b : Bytes) (src : Address) (body : Body) : Prop :=
  ∃ sequence tail, decodeMsg b = some (⟨sequence, src, body⟩, tail)

/-- A cached window of the link layer: none yet, or one of the window's length. -/
def Cached (mac : MacParams) (w : MacState) : Prop :=
  w = .zero ∨ w.windowEnd = w.windowStart + mac.windowLength

/-- The node's ring is fixed for this superframe. -/
def PastDiscovery : Control → Prop
  | .idle | .discovery _ => False
  | _ => True

/-- The node's table is fixed but for new entries. -/
def Settled : Control → Prop
  | .announcement _ earlier _ => earlier = true
  | .joining _ _ isClusterhead _ => isClusterhead = true
  | .done => True
  | _ => False

/-- The table of `s` gives `follower` the relative slot `relative` of the window at `start`. -/
structure Grants (s : MultihopState) (follower : Address) (start relative : UInt8) : Prop where
  start : s.downstreamStartSlot = start
  own : 1 ≤ relative
  taken : relative < s.slotsAssigned
  entry : s.slotAssignments relative.toNat = follower

/-- What the sender of a message stands by. -/
def Backs (p : Proc) : Body → Prop
  | .accept accepted follower start relative _ =>
      accepted ≠ 0 → Settled p.control ∧ Grants p.node.state follower start relative
  | .openCluster ring _ _ => PastDiscovery p.control ∧ ring = p.node.state.ring ∧ ring ≤ 2
  | _ => True

/-- A state that may answer Follows: index 0 of its table is no follower's. -/
structure Manages (s : MultihopState) : Prop where
  acts : s.actsAsClusterhead = true
  assigned : 1 ≤ s.slotsAssigned
  first : s.slotAssignments 0 = GATEWAY_ADDR ∨ s.slotAssignments 0 = s.address

section Views

variable {ι : Type*} (addr : ι → Address)

/-- A message carries its sender's address, and a Follow comes from a non-gateway for another. -/
structure Sound (i : ι) (b : Bytes) : Prop where
  source : ∀ src body, Reads b src body → src = addr i
  follow : ∀ src clusterhead follower, Reads b src (.follow clusterhead follower) →
    addr i ≠ GATEWAY_ADDR ∧ clusterhead ≠ addr i

def Vouched (i : ι) (p : Proc) (b : Bytes) : Prop := ∀ body, Reads b (addr i) body → Backs p body

/-- A message of `i` that it stands by in the state `p`. -/
structure Own (i : ι) (p : Proc) (b : Bytes) : Prop where
  sound : Sound addr i b
  vouched : Vouched addr i p b

/-- No node, or another one that announced the ring. -/
def Offered (i : ι) (air : List (ι × Bytes)) (node : Address) (ring : Ring) : Prop :=
  node = UNKNOWN_ADDR ∨ node ≠ addr i ∧
    ∃ q ∈ air, ∃ opener neighbors, Reads q.2 node (.openCluster ring opener neighbors)

def Options (i : ι) (air : List (ι × Bytes)) (c : ClusterheadCandidates) : Prop :=
  Offered addr i air c.top.address c.top.ring ∧ Offered addr i air c.second.address c.second.ring

/-- A target is closer to the gateway than a known own ring. -/
structure Targets (i : ι) (s : MultihopState) (air : List (ι × Bytes)) (l : JoinLocals) : Prop where
  offered : Offered addr i air l.targetNode l.targetRing
  closer : l.targetNode = UNKNOWN_ADDR ∨ s.ring = UNKNOWN_RING ∨ l.targetRing < s.ring
  options : Options addr i air l.candidates
  eligible : l.eligibleFollower = true ∨ l.tryToFollow = true → addr i ≠ GATEWAY_ADDR

/-- Where a node without a clusterhead or with one stands: it holds an Accept of it, and an
announcement of a ring below its own. -/
structure Upstream (i : ι) (s : MultihopState) (air : List (ι × Bytes)) : Prop where
  accepted : ∃ q ∈ air, ∃ accepted remote, accepted ≠ 0 ∧
    Reads q.2 s.clusterheadAddr
      (.accept accepted (addr i) s.upstreamStartSlot s.upstreamRelativeSlot remote)
  announced : ∃ q ∈ air, ∃ opener neighbors,
    Reads q.2 s.clusterheadAddr (.openCluster s.clusterheadRing opener neighbors)
  closer : s.ring = UNKNOWN_RING ∨ s.clusterheadRing < s.ring

/-- What a node knows where it stands. -/
def Place (i : ι) (s : MultihopState) (air : List (ι × Bytes)) : Control → Prop
  | .discovery _ => s.clusterheadAddr = UNKNOWN_ADDR
  | .announcement round earlier l =>
      round ≤ 2 ∧ Options addr i air l.candidates ∧
        (earlier = true ∨ l.isClusterhead = true → Manages s) ∧
          (l.needToAnnounce = true → s.ring = UInt8.ofNat round)
  | .joining _ round isClusterhead l =>
      round ≤ 2 ∧ (isClusterhead = true → Manages s) ∧ Targets addr i s air l
  | _ => True

/-- What a node knows of itself. -/
structure Known (i : ι) (p : Proc) (air : List (ι × Bytes)) : Prop where
  address : p.node.state.address = addr i
  gateway : p.node.state.role = .gateway ↔ addr i = GATEWAY_ADDR
  waiting : p.control = .idle → Cached p.node.mac p.node.link.macState ∧
    p.node.mac.superframeSlotCount.toNat ≤ p.node.state.slotCount
  room : p.control ≠ .idle → 1 ≤ p.node.state.slotCount
  rx : ∀ b ∈ p.node.link.rx, ∃ j, (j, b) ∈ air
  tx : Carries (Own addr i p) p.node
  place : Place addr i p.node.state air p.control
  upstream : p.control ≠ .idle →
    p.node.state.clusterheadAddr = UNKNOWN_ADDR ∨ Upstream addr i p.node.state air

def claims : Claims ι Proc Bytes where
  known := Known addr
  sound := Sound addr
  vouched := Vouched addr

end Views

/-- The table of `s'` has what the table of `s` has. -/
structure Keeps (s s' : MultihopState) : Prop where
  start : s'.downstreamStartSlot = s.downstreamStartSlot
  assigned : s.slotsAssigned ≤ s'.slotsAssigned
  entries : ∀ k < s.slotsAssigned.toNat, s'.slotAssignments k = s.slotAssignments k

private theorem Keeps.refl (s : MultihopState) : Keeps s s := ⟨rfl, UInt8.le_refl _, fun _ _ => rfl⟩

private theorem Grants.keeps {s s' : MultihopState} {follower : Address} {start relative : UInt8}
    (h : Grants s follower start relative) (hk : Keeps s s') :
    Grants s' follower start relative :=
  ⟨hk.start.trans h.start, h.own, UInt8.lt_of_lt_of_le h.taken hk.assigned,
    (hk.entries _ (UInt8.lt_iff_toNat_lt.mp h.taken)).trans h.entry⟩

/-- What a step takes nothing back of. -/
structure Grows (p p' : Proc) : Prop where
  past : PastDiscovery p.control →
    PastDiscovery p'.control ∧ p'.node.state.ring = p.node.state.ring
  settled : Settled p.control → Settled p'.control ∧ Keeps p.node.state p'.node.state

private theorem Grows.of_state {p p' : Proc} (hstate : p'.node.state = p.node.state)
    (hpast : PastDiscovery p.control → PastDiscovery p'.control)
    (hsettled : Settled p.control → Settled p'.control) : Grows p p' :=
  ⟨fun h => ⟨hpast h, by rw [hstate]⟩, fun h => ⟨hsettled h, hstate ▸ Keeps.refl _⟩⟩

private theorem Backs.grows {p p' : Proc} {body : Body} (h : Backs p body) (hg : Grows p p') :
    Backs p' body := by
  cases body with
  | accept accepted follower start relative remote =>
      intro haccepted
      obtain ⟨hsettled, hgrants⟩ := h haccepted
      obtain ⟨hsettled', hkeeps⟩ := hg.settled hsettled
      exact ⟨hsettled', hgrants.keeps hkeeps⟩
  | openCluster ring node neighbors =>
      obtain ⟨hpast, hring, hle⟩ := h
      obtain ⟨hpast', hring'⟩ := hg.past hpast
      exact ⟨hpast', hring.trans hring'.symm, hle⟩
  | _ => trivial

section Knowledge

variable {ι : Type*} {addr : ι → Address} {i : ι} {p p' : Proc} {air : List (ι × Bytes)}
  {b : Bytes}

private theorem Own.grows (h : Own addr i p b) (hg : Grows p p') : Own addr i p' b :=
  ⟨h.sound, fun body hb => (h.vouched body hb).grows hg⟩

private theorem reads_toBytes {m : Message} (hfits : m.body.Fits []) {src : Address} {body : Body}
    (h : Reads m.toBytes src body) : src = m.src ∧ body = m.body := by
  obtain ⟨sequence, tail, hdec⟩ := h
  have hm := decodeMsg_toBytes hfits
  rw [List.append_nil, hdec] at hm
  obtain ⟨rfl, -⟩ := Prod.mk.inj (Option.some.inj hm)
  exact ⟨rfl, rfl⟩

private theorem own_toBytes {m : Message} (hfits : m.body.Fits []) (hsrc : m.src = addr i)
    (hfollow : ∀ clusterhead follower, m.body = .follow clusterhead follower →
      addr i ≠ GATEWAY_ADDR ∧ clusterhead ≠ addr i)
    (hbacks : Backs p m.body) : Own addr i p m.toBytes := by
  refine ⟨⟨?_, ?_⟩, ?_⟩
  · intro src body hb
    exact (reads_toBytes hfits hb).1.trans hsrc
  · intro src clusterhead follower hb
    exact hfollow _ _ (reads_toBytes hfits hb).2.symm
  · intro body hb
    rw [(reads_toBytes hfits hb).2]
    exact hbacks

section Mono

variable {air' : List (ι × Bytes)} (hair : ∀ q ∈ air, q ∈ air')
include hair

private theorem Offered.mono {node : Address} {ring : Ring} (h : Offered addr i air node ring) :
    Offered addr i air' node ring :=
  h.imp_right fun ⟨hne, q, hq, hopen⟩ => ⟨hne, q, hair q hq, hopen⟩

private theorem Options.mono {c : ClusterheadCandidates} (h : Options addr i air c) :
    Options addr i air' c :=
  ⟨h.1.mono hair, h.2.mono hair⟩

private theorem Targets.mono {s : MultihopState} {l : JoinLocals} (h : Targets addr i s air l) :
    Targets addr i s air' l :=
  ⟨h.offered.mono hair, h.closer, h.options.mono hair, h.eligible⟩

private theorem Upstream.mono {s : MultihopState} (h : Upstream addr i s air) :
    Upstream addr i s air' := by
  obtain ⟨⟨q, hq, haccept⟩, ⟨r, hr, hopen⟩, hcloser⟩ := h
  exact ⟨⟨q, hair q hq, haccept⟩, ⟨r, hair r hr, hopen⟩, hcloser⟩

private theorem Place.mono {s : MultihopState} {control : Control}
    (h : Place addr i s air control) : Place addr i s air' control := by
  cases control with
  | announcement round earlier l =>
      obtain ⟨hround, hoptions, hrest⟩ := h
      exact ⟨hround, hoptions.mono hair, hrest⟩
  | joining stage round isClusterhead l =>
      obtain ⟨hround, hmanages, htargets⟩ := h
      exact ⟨hround, hmanages, htargets.mono hair⟩
  | _ => exact h

private theorem Known.mono (h : Known addr i p air) : Known addr i p air' where
  address := h.address
  gateway := h.gateway
  waiting := h.waiting
  room := h.room
  rx b hb := (h.rx b hb).imp fun _ hj => hair _ hj
  tx := h.tx
  place := h.place.mono hair
  upstream hi := (h.upstream hi).imp_right fun hu => hu.mono hair

end Mono

private theorem Known.of_state (h : Known addr i p air) (hidle : p.control ≠ .idle)
    (hidle' : p'.control ≠ .idle) (hstate : p'.node.state = p.node.state)
    (hrx : ∀ b ∈ p'.node.link.rx, ∃ j, (j, b) ∈ air) (htx : Carries (Own addr i p') p'.node)
    (hplace : Place addr i p.node.state air p'.control) : Known addr i p' air where
  address := hstate ▸ h.address
  gateway := hstate ▸ h.gateway
  waiting hi := absurd hi hidle'
  room _ := hstate ▸ h.room hidle
  rx := hrx
  tx := htx
  place := by rwa [hstate]
  upstream _ := hstate ▸ h.upstream hidle

end Knowledge

/-- What a step of `i` establishes. -/
structure Advances {ι : Type*} (addr : ι → Address) (i : ι) (air : List (ι × Bytes)) (p p' : Proc)
    (frames : List Queue.Frame) : Prop where
  known : Known addr i p' air
  grows : Grows p p'
  out : ∀ f ∈ frames, ∀ b ∈ f.msgs, Own addr i p' b

private theorem not_of_no_frames {P : Bytes → Prop} :
    ∀ f ∈ ([] : List Queue.Frame), ∀ b ∈ f.msgs, P b :=
  fun _ hf => absurd hf List.not_mem_nil

private theorem prepare_manages {n : Node} (hroom : 1 ≤ n.state.slotCount)
    (hacts : n.state.actsAsClusterhead = true) : Manages (prepareClusterhead n).state := by
  refine ⟨hacts, UInt8.le_refl _, ?_⟩
  rw [prepareClusterhead]
  dsimp only
  split_ifs with hlast hin
  · exact Or.inr rfl
  · exact Or.inl rfl
  · omega

private theorem startRound_cases (inp : Input) (round : Nat) (earlier : Bool) (n : Node) :
    ∃ l, l.candidates = .reset ∧
      (earlier = false ∧ n.state.ring = UInt8.ofNat round ∧
          startRound inp round earlier n = ⟨.announcement round earlier l,
            prepareClusterhead (if n.state.role ≠ .gateway then withRole .clusterhead n else n)⟩ ∨
        (earlier = true ∨ l.isClusterhead = false) ∧ l.needToAnnounce = false ∧
          startRound inp round earlier n = ⟨.announcement round earlier l, n⟩) := by
  refine ⟨(startAnnouncement inp (roundMs n.mac) (UInt8.ofNat round) earlier n).1, rfl, ?_⟩
  rw [startRound, startAnnouncement]
  dsimp only
  by_cases hnew : (volunteers (inp.rand 0) (UInt8.ofNat round) n.state && !earlier) = true
  · obtain ⟨hvolunteers, hearlier⟩ := Bool.and_eq_true_iff.mp hnew
    rw [if_pos hnew]
    refine Or.inl ⟨by simpa using hearlier, ?_, rfl⟩
    by_contra hring
    rw [volunteers, if_neg hring] at hvolunteers
    exact absurd hvolunteers (by simp)
  · rw [if_neg hnew]
    refine Or.inr ⟨?_, Bool.eq_false_iff.mpr hnew, rfl⟩
    cases earlier with
    | true => exact Or.inl rfl
    | false => exact Or.inr (by simpa using hnew)

private theorem assigned_add_one {n : Node} (h : n.state.slotsAssigned < vtdmaWindowSize n.mac) :
    (n.state.slotsAssigned + 1).toNat = n.state.slotsAssigned.toNat + 1 := by
  have hlt := UInt8.lt_iff_toNat_lt.mp h
  have hwindow := (vtdmaWindowSize n.mac).toNat_lt
  exact (Histogram.add_one_ne_zero (by omega)).1

private theorem assign_keeps (follower : Address) (n : Node) :
    Keeps n.state (assign follower n).state := by
  rw [assign]
  split_ifs with hnew
  · refine ⟨rfl, ?_, fun k hk => if_neg (by omega)⟩
    rw [UInt8.le_iff_toNat_le]
    dsimp only
    rw [assigned_add_one hnew.2]
    omega
  · exact Keeps.refl _

private theorem assign_manages (follower : Address) {n : Node} (h : Manages n.state) :
    Manages (assign follower n).state := by
  have hone := UInt8.le_iff_toNat_le.mp h.assigned
  have hval : (1 : UInt8).toNat = 1 := rfl
  have hkeeps := assign_keeps follower n
  obtain ⟨table, count, hstate⟩ := assign_kept follower n
  have hacts : (assign follower n).state.actsAsClusterhead = true := by
    rw [hstate]
    exact h.acts
  have haddress : (assign follower n).state.address = n.state.address := by rw [hstate]
  refine ⟨hacts, UInt8.le_trans h.assigned hkeeps.assigned, ?_⟩
  rw [hkeeps.entries 0 (by omega), haddress]
  exact h.first

private theorem acceptMessage_grants {follower : Address} {n : Node} (h : Manages n.state)
    (hgateway : follower ≠ GATEWAY_ADDR) (hown : follower ≠ n.state.address)
    (remote stamp : UInt32) :
    (∃ relative, (acceptMessage follower remote stamp n).body =
        .accept 1 follower n.state.downstreamStartSlot relative remote ∧
      Grants (assign follower n).state follower n.state.downstreamStartSlot relative) ∨
      (acceptMessage follower remote stamp n).body = .accept 0 follower 0 0 remote := by
  have hone := UInt8.le_iff_toNat_le.mp h.assigned
  have hval : (1 : UInt8).toNat = 1 := rfl
  rw [acceptMessage, slotFor, assign]
  cases ha : assignedSlot follower n.state with
  | some k =>
      obtain ⟨hlt, hentry⟩ := assignedSlot_some ha
      have hbound := n.state.slotsAssigned.toNat_lt
      have hk : (UInt8.ofNat k).toNat = k := by
        rw [UInt8.toNat_ofNat']
        omega
      have hpos : k ≠ 0 := by
        rintro rfl
        cases h.first with
        | inl hz =>
            exact hgateway (hentry.symm.trans hz)
        | inr ho =>
            exact hown (hentry.symm.trans ho)
      have hold : ¬((some k : Option Nat) = none ∧
          n.state.slotsAssigned < vtdmaWindowSize n.mac) := fun hc => by simp at hc
      rw [if_neg hold]
      refine Or.inl ⟨_, rfl, rfl, ?_, ?_, ?_⟩
      · rw [UInt8.le_iff_toNat_le]
        omega
      · rw [UInt8.lt_iff_toNat_lt]
        omega
      · rw [hk]
        exact hentry
  | none =>
      dsimp only
      by_cases hfull : vtdmaWindowSize n.mac ≤ n.state.slotsAssigned
      · rw [if_pos hfull]
        exact Or.inr rfl
      · have hnew := UInt8.not_le.mp hfull
        rw [if_neg hfull, if_pos ⟨rfl, hnew⟩]
        refine Or.inl ⟨_, rfl, rfl, h.assigned, ?_, if_pos rfl⟩
        rw [UInt8.lt_iff_toNat_lt]
        dsimp only
        rw [assigned_add_one hnew]
        omega

section Steps

variable {ι : Type*} {addr : ι → Address} {i : ι} {air : List (ι × Bytes)} {inp : Input} {n : Node}

private theorem reset_options : Options addr i air .reset := ⟨Or.inl rfl, Or.inl rfl⟩

private theorem advances_round {control : Control} (h : Known addr i ⟨control, n⟩ air)
    (hidle : control ≠ .idle) {round : Nat} (hround : round ≤ 2) {earlier : Bool}
    (hsettled : Settled control → earlier = true) (hearlier : earlier = true → Manages n.state) :
    Advances addr i air ⟨control, n⟩ (startRound inp round earlier n) [] := by
  have hroom : 1 ≤ n.state.slotCount := h.room hidle
  have hupstream (role : Role) :
      n.state.clusterheadAddr = UNKNOWN_ADDR ∨
        Upstream addr i (prepareClusterhead (withRole role n)).state air :=
    (h.upstream hidle).imp_right fun hu => ⟨hu.accepted, hu.announced, hu.closer⟩
  obtain ⟨l, hreset, ⟨hfirst, hring, heq⟩ | ⟨hnot, hneed, heq⟩⟩ :=
    startRound_cases inp round earlier n
  · have hgrows : Grows ⟨control, n⟩ (startRound inp round earlier n) := by
      rw [heq]
      refine ⟨fun _ => ⟨trivial, ?_⟩, ?_⟩
      · dsimp only
        split_ifs <;> rfl
      · intro hs
        exact absurd (hfirst.symm.trans (hsettled hs)) (by simp)
    have htx : Carries (Own addr i (startRound inp round earlier n)) n := fun b hb =>
      (h.tx b hb).grows hgrows
    refine ⟨?_, hgrows, not_of_no_frames⟩
    rw [heq] at htx ⊢
    by_cases hrole : n.state.role ≠ .gateway
    · rw [if_pos hrole] at htx ⊢
      have hmanages : Manages (prepareClusterhead (withRole .clusterhead n)).state :=
        prepare_manages hroom rfl
      refine ⟨h.address, ?_, fun hi => by simp at hi, fun _ => hroom, h.rx, htx,
        ⟨hround, hreset ▸ reset_options, fun _ => hmanages, fun _ => hring⟩, ?_⟩
      · exact ⟨fun hg => absurd hg (by simp [prepareClusterhead, withRole]),
          fun hg => absurd (h.gateway.mpr hg) hrole⟩
      · intro _
        exact hupstream .clusterhead
    · rw [if_neg hrole] at htx ⊢
      have hmanages : Manages (prepareClusterhead n).state := by
        apply prepare_manages hroom
        rw [MultihopState.actsAsClusterhead, not_not.mp hrole]
        rfl
      exact ⟨h.address, h.gateway, fun hi => by simp at hi, fun _ => hroom, h.rx, htx,
        ⟨hround, hreset ▸ reset_options, fun _ => hmanages, fun _ => hring⟩,
        fun _ => hupstream n.state.role⟩
  · have hgrows : Grows ⟨control, n⟩ (startRound inp round earlier n) := by
      rw [heq]
      exact Grows.of_state rfl (fun _ => trivial) hsettled
    have htx : Carries (Own addr i (startRound inp round earlier n)) n := fun b hb =>
      (h.tx b hb).grows hgrows
    refine ⟨?_, hgrows, not_of_no_frames⟩
    rw [heq] at htx ⊢
    refine h.of_state hidle (by simp) rfl h.rx htx
      ⟨hround, hreset ▸ reset_options, ?_, ?_⟩
    · intro hch
      cases hnot with
      | inl he =>
          exact hearlier he
      | inr hno =>
          cases hch with
          | inl he =>
              exact hearlier he
          | inr hyes =>
              exact absurd (hno.symm.trans hyes) (by simp)
    · intro hdue
      exact absurd (hneed.symm.trans hdue) (by simp)

private theorem no_slot_of_empty {mac : MacParams} {w : MacState} {now : UInt32} (h : Cached mac w)
    (hempty : mac.superframeSlotCount = 0) : (Mac.currentSlot mac w now).1 = -1 := by
  have hlength : mac.windowLength = 0 := by
    rw [MacParams.windowLength, hempty]
    exact UInt32.mul_zero
  have hnone : ∀ w' : MacState, w'.windowEnd = w'.windowStart →
      Mac.inActiveWindow w' now = false := by
    intro w' hw'
    rw [Mac.inActiveWindow, hw']
    by_cases hle : w'.windowStart ≤ now
    · simp [UInt32.not_lt.mpr hle]
    · simp [hle]
  have hrefreshed : (Mac.refreshWindow mac w now).windowEnd =
      (Mac.refreshWindow mac w now).windowStart := by
    rw [Mac.refreshWindow]
    split_ifs
    · rw [hlength]
      exact UInt32.add_zero _
    · rcases h with rfl | hw
      · rfl
      · rw [hw, hlength]
        exact UInt32.add_zero _
  exact if_neg (by rw [hnone _ hrefreshed]; simp)

private theorem refreshed_cached {mac : MacParams} {w : MacState} (h : Cached mac w)
    (now : UInt32) : Cached mac (Mac.refreshWindow mac w now) := by
  rw [Mac.refreshWindow]
  split_ifs
  · exact Or.inr rfl
  · exact h

private theorem advances_idle (h : Known addr i ⟨.idle, n⟩ air) :
    Advances addr i air ⟨.idle, n⟩ (step inp ⟨.idle, n⟩).1 (step inp ⟨.idle, n⟩).2 := by
  obtain ⟨hcached, hslots⟩ := h.waiting rfl
  rw [step]
  dsimp only
  split_ifs with hslot
  · refine ⟨⟨h.address, h.gateway, fun _ => ⟨refreshed_cached hcached _, hslots⟩,
      fun hi => absurd rfl hi, h.rx, ?_, trivial, fun hi => absurd rfl hi⟩,
      ⟨False.elim, False.elim⟩, not_of_no_frames⟩
    intro b hb
    exact (h.tx b hb).grows ⟨False.elim, False.elim⟩
  · have hroom : 1 ≤ n.state.slotCount := by
      by_contra hzero
      have hempty : n.mac.superframeSlotCount = 0 := UInt8.toNat_inj.mp (by
        have : (0 : UInt8).toNat = 0 := rfl
        have hslots : n.mac.superframeSlotCount.toNat ≤ n.state.slotCount := hslots
        omega)
      apply hslot
      rw [show (Slots.activeSlot (inp.now 0) n).1 = -1 from no_slot_of_empty hcached hempty]
      decide
    have hgrows : Grows ⟨.idle, n⟩ (startAdvertise inp (Slots.activeSlot (inp.now 0) n).2) :=
      ⟨False.elim, False.elim⟩
    refine ⟨⟨h.address, ?_, fun hi => by simp [startAdvertise] at hi, fun _ => hroom, h.rx,
      fun b hb => (h.tx b hb).grows hgrows, rfl, fun _ => Or.inl rfl⟩, hgrows, not_of_no_frames⟩
    have hrole : (startAdvertise inp (Slots.activeSlot (inp.now 0) n).2).node.state.role =
        if n.state.role ≠ .gateway then .follower else n.state.role := rfl
    rw [hrole, ← h.gateway]
    split_ifs with hg
    · exact ⟨fun hf => absurd hf (by simp), fun hg' => absurd hg' hg⟩
    · exact Iff.rfl

private theorem advances_discovery {l : DiscoveryLocals} (h : Known addr i ⟨.discovery l, n⟩ air)
    (hheard : ∀ b ∈ inp.heard, ∃ j, (j, b) ∈ air) :
    Advances addr i air ⟨.discovery l, n⟩ (step inp ⟨.discovery l, n⟩).1
      (step inp ⟨.discovery l, n⟩).2 := by
  rw [step]
  dsimp only
  split_ifs with hend
  · exact advances_round h (by simp) (Nat.zero_le _) False.elim fun he => by simp at he
  · have hgrows : Grows ⟨.discovery l, n⟩
        ⟨.discovery (discoveryPass inp l n).1, (discoveryPass inp l n).2.1⟩ :=
      ⟨False.elim, False.elim⟩
    obtain ⟨htx, hout⟩ := discoveryPass_carries inp l
      (fun b hb => (h.tx b hb).grows hgrows)
      (fun stamp ring => own_toBytes (m := ⟨stamp, n.state.address, .heartbeat ring⟩) rfl h.address
        (fun _ _ hf => by simp at hf) trivial)
    obtain ⟨neighbors, ring, rounds, hkept⟩ := heardState_kept inp n
    have hstate := (discoveryPass_state inp l n).trans hkept
    refine ⟨⟨?_, ?_, fun hi => by simp at hi, ?_, ?_, htx, ?_, ?_⟩,
      hgrows, hout⟩
    · rw [hstate]
      exact h.address
    · rw [hstate]
      exact h.gateway
    · intro _
      rw [hstate]
      exact h.room (by simp)
    · intro b hb
      cases discoveryPass_rx hb with
      | inl hb =>
          exact h.rx b hb
      | inr hb =>
          exact hheard b hb
    · rw [hstate]
      exact h.place
    · intro _
      rw [hstate]
      exact Or.inl h.place

private theorem update_options {c : ClusterheadCandidates} (h : Options addr i air c)
    {node : Address} {ring : Ring} (hnew : Offered addr i air node ring) (score : UInt32) :
    Options addr i air (c.update node ring score) := by
  rw [ClusterheadCandidates.update]
  split_ifs
  · exact ⟨hnew, h.1⟩
  · exact ⟨h.1, hnew⟩
  · exact h

private theorem hearPeers_options {s : MultihopState} (hs : s.address = addr i) {l : AnnounceLocals}
    (h : Options addr i air l.candidates) {msgs : List Bytes}
    (hmsgs : ∀ b ∈ msgs, ∃ j, (j, b) ∈ air) :
    Options addr i air (msgs.foldl (hearPeer s) l).candidates := by
  induction msgs generalizing l with
  | nil => exact h
  | cons b msgs ih =>
      refine ih ?_ fun c hc => hmsgs c (List.mem_cons_of_mem _ hc)
      obtain ⟨j, hj⟩ := hmsgs b List.mem_cons_self
      rw [hearPeer]
      split
      · next sequence src ring opener neighbors tail hdec =>
        by_cases hown : src = s.address
        · rwa [if_pos hown]
        · have hoffered : Offered addr i air src ring :=
            Or.inr ⟨hs ▸ hown, _, hj, opener, neighbors, sequence, tail, hdec⟩
          rw [if_neg hown]
          dsimp only
          split_ifs <;> exact update_options h hoffered _
      · exact h

private theorem announcementPass_options (haddress : n.state.address = addr i) {l : AnnounceLocals}
    (hoptions : Options addr i air l.candidates) (hrx : ∀ b ∈ n.link.rx, ∃ j, (j, b) ∈ air)
    (hheard : ∀ b ∈ inp.heard, ∃ j, (j, b) ∈ air) :
    Options addr i air (announcementPass inp l n).1.candidates := by
  have hmsgs : ∀ b ∈ (announceCluster inp l (recv (inp.now 0) inp.arrival n).2).2.1.link.rx,
      ∃ j, (j, b) ∈ air := by
    intro b hb
    rw [announceCluster_rx] at hb
    cases recv_rx hb with
    | inl hb =>
        exact hrx b hb
    | inr hb =>
        exact hheard b hb
  have hstate :
      (announceCluster inp l (recv (inp.now 0) inp.arrival n).2).2.1.state.address = addr i := by
    rw [announceCluster_state]
    exact haddress
  have hcandidates : Options addr i air
      (announceCluster inp l (recv (inp.now 0) inp.arrival n).2).1.candidates := by
    rwa [announceCluster_candidates]
  exact hearPeers_options hstate hcandidates hmsgs

private theorem closer_offered {s : MultihopState} {c : Candidate}
    (h : Offered addr i air c.address c.ring) :
    Offered addr i air (closer s c).1 (closer s c).2 ∧
      ((closer s c).1 = UNKNOWN_ADDR ∨ s.ring = UNKNOWN_RING ∨ (closer s c).2 < s.ring) := by
  rw [closer]
  by_cases hfar : UNKNOWN_RING ≠ s.ring ∧ s.ring ≤ c.ring
  · rw [if_pos hfar]
    exact ⟨Or.inl rfl, Or.inl rfl⟩
  · rw [if_neg hfar]
    refine ⟨h, Or.inr ?_⟩
    by_cases hu : s.ring = UNKNOWN_RING
    · exact Or.inl hu
    · exact Or.inr (UInt8.not_le.mp fun hle => hfar ⟨Ne.symm hu, hle⟩)

private theorem follower_address {s : MultihopState} (h : s.role = .gateway ↔ addr i = GATEWAY_ADDR)
    (hacts : s.actsAsFollower = true) : addr i ≠ GATEWAY_ADDR := by
  intro hg
  rw [MultihopState.actsAsFollower, h.mpr hg] at hacts
  exact absurd hacts (by decide)

private theorem advances_announcement {round : Nat} {earlier : Bool} {l : AnnounceLocals}
    (h : Known addr i ⟨.announcement round earlier l, n⟩ air)
    (hheard : ∀ b ∈ inp.heard, ∃ j, (j, b) ∈ air) :
    Advances addr i air ⟨.announcement round earlier l, n⟩
      (step inp ⟨.announcement round earlier l, n⟩).1
      (step inp ⟨.announcement round earlier l, n⟩).2 := by
  obtain ⟨hround, hoptions, hmanages, hdue⟩ := h.place
  rw [step]
  dsimp only
  split_ifs with hend
  · have hgrows : Grows ⟨.announcement round earlier l, n⟩
        ⟨.joining .head round (earlier || l.isClusterhead)
          (startJoining inp (roundMs n.mac) l.candidates n.state), n⟩ :=
      Grows.of_state rfl (fun _ => trivial) fun he => by
        have he : earlier = true := he
        exact Bool.or_eq_true_iff.mpr (Or.inl he)
    obtain ⟨hoffered, hcloser⟩ := closer_offered (s := n.state) hoptions.1
    refine ⟨h.of_state (by simp) (by simp) rfl h.rx (fun b hb => (h.tx b hb).grows hgrows)
      ⟨hround, fun hch => hmanages (Bool.or_eq_true_iff.mp hch),
        ⟨hoffered, hcloser, hoptions, ?_⟩⟩, hgrows, not_of_no_frames⟩
    intro hf
    exact follower_address h.gateway (hf.elim id id)
  · have hstate := announcementPass_state inp l n
    have hgrows : Grows ⟨.announcement round earlier l, n⟩
        ⟨.announcement round earlier (announcementPass inp l n).1,
          (announcementPass inp l n).2.1⟩ :=
      Grows.of_state hstate (fun _ => trivial) id
    have hopen (hneed : l.needToAnnounce = true) (stamp : UInt32) :
        Own addr i ⟨.announcement round earlier (announcementPass inp l n).1,
            (announcementPass inp l n).2.1⟩
          (Message.toBytes ⟨stamp, n.state.address,
            .openCluster n.state.ring n.state.address n.state.neighbors⟩) := by
      refine own_toBytes rfl h.address (fun _ _ hf => by simp at hf) ⟨trivial, ?_, ?_⟩
      · dsimp only
        rw [hstate]
      · have hring : n.state.ring = UInt8.ofNat round := hdue hneed
        rw [hring]
        interval_cases round <;> decide
    obtain ⟨htx, hout⟩ := announcementPass_carries inp
      (fun b hb => (h.tx b hb).grows hgrows) hopen
    have hoptions' : Options addr i air (announcementPass inp l n).1.candidates :=
      announcementPass_options h.address hoptions h.rx hheard
    obtain ⟨hvolunteer, hdue'⟩ := announcementPass_not_raised inp l n
    exact ⟨h.of_state (by simp) (by simp) hstate (fun b hb => absurd hb List.not_mem_nil) htx
      ⟨hround, hoptions', fun hch => hmanages (hch.imp_right hvolunteer),
        fun hneed => hdue (hdue' hneed)⟩, hgrows, hout⟩

private theorem advances_head {round : Nat} {isClusterhead : Bool} {l : JoinLocals}
    (h : Known addr i ⟨.joining .head round isClusterhead l, n⟩ air) :
    Advances addr i air ⟨.joining .head round isClusterhead l, n⟩
      (step inp ⟨.joining .head round isClusterhead l, n⟩).1
      (step inp ⟨.joining .head round isClusterhead l, n⟩).2 := by
  obtain ⟨hround, hmanages, htargets⟩ := h.place
  rw [step]
  dsimp only
  split_ifs with hend hnext
  · exact advances_round h (by simp) (Nat.le_of_lt_succ hnext) id hmanages
  · have hgrows : Grows ⟨.joining .head round isClusterhead l, n⟩ (finishAdvertise n) :=
      ⟨fun _ => ⟨trivial, rfl⟩, fun _ => ⟨trivial, rfl, UInt8.le_refl _, fun _ _ => rfl⟩⟩
    exact ⟨⟨h.address, h.gateway, fun hi => by simp [finishAdvertise] at hi,
      fun _ => h.room (by simp), h.rx, fun b hb => (h.tx b hb).grows hgrows, trivial,
      fun _ => (h.upstream (by simp)).imp_right fun hu =>
        ⟨hu.accepted, hu.announced, hu.closer⟩⟩, hgrows, not_of_no_frames⟩
  · have hstate := joinHead_state inp l n
    have hgrows : Grows ⟨.joining .head round isClusterhead l, n⟩
        ⟨.joining .recv round isClusterhead (joinHead inp l n).1, (joinHead inp l n).2.1⟩ :=
      Grows.of_state hstate (fun _ => trivial) id
    have hfollow (htry : l.tryToFollow = true) (hknown : l.targetNode ≠ UNKNOWN_ADDR)
        (stamp : UInt32) : Own addr i
          ⟨.joining .recv round isClusterhead (joinHead inp l n).1, (joinHead inp l n).2.1⟩
          (Message.toBytes ⟨stamp, n.state.address, .follow l.targetNode n.state.address⟩) := by
      refine own_toBytes rfl h.address ?_ trivial
      intro clusterhead follower hf
      obtain ⟨rfl, -⟩ := Body.follow.inj hf
      exact ⟨htargets.eligible (Or.inr htry), (htargets.offered.resolve_left hknown).1⟩
    obtain ⟨htx, hout⟩ := joinHead_carries inp
      (fun b hb => (h.tx b hb).grows hgrows) hfollow
    have htargets' : Targets addr i n.state air (joinHead inp l n).1 := by
      cases joinHead_locals inp l n with
      | inl hl =>
          rwa [hl]
      | inr hl =>
          rw [hl]
          exact ⟨htargets.offered, htargets.closer, htargets.options,
            fun hf => htargets.eligible (hf.imp_right fun hno => absurd hno (by simp))⟩
    exact ⟨h.of_state (by simp) (by simp) hstate
      (fun b hb => h.rx b (by rwa [joinHead_rx] at hb)) htx ⟨hround, hmanages, htargets'⟩, hgrows,
      hout⟩

private theorem advances_recv {round : Nat} {isClusterhead : Bool} {l : JoinLocals}
    (h : Known addr i ⟨.joining .recv round isClusterhead l, n⟩ air)
    (hheard : ∀ b ∈ inp.heard, ∃ j, (j, b) ∈ air) :
    Advances addr i air ⟨.joining .recv round isClusterhead l, n⟩
      (step inp ⟨.joining .recv round isClusterhead l, n⟩).1
      (step inp ⟨.joining .recv round isClusterhead l, n⟩).2 := by
  have hgrows : Grows ⟨.joining .recv round isClusterhead l, n⟩
      ⟨.joining .drain round isClusterhead l, (recv (inp.now 0) inp.arrival n).2⟩ :=
    Grows.of_state rfl (fun _ => trivial) id
  refine ⟨h.of_state (by simp) (by simp [step]) rfl ?_
    (recv_carries (fun b hb => (h.tx b hb).grows hgrows) _ _) h.place, hgrows, not_of_no_frames⟩
  intro b hb
  cases recv_rx hb with
  | inl hb =>
      exact h.rx b hb
  | inr hb =>
      exact hheard b hb

private theorem Manages.initialized {s : MultihopState} (h : Manages s) : s.initialized = true := by
  have hacts := h.acts
  rw [MultihopState.actsAsClusterhead, Bool.or_eq_true_iff, decide_eq_true_iff,
    decide_eq_true_iff] at hacts
  rw [MultihopState.initialized, decide_eq_true_iff]
  rcases hacts with hr | hr <;> simp [hr]

private theorem acceptMessage_own {follower : Address} {p : Proc} (hmanages : Manages n.state)
    (haddr : n.state.address = addr i) (hgateway : follower ≠ GATEWAY_ADDR)
    (hne : follower ≠ n.state.address) (hstate : p.node.state = (assign follower n).state)
    (hsettled : Settled p.control) (remote stamp : UInt32) :
    Own addr i p (acceptMessage follower remote stamp n).toBytes := by
  have hown : (acceptMessage follower remote stamp n).src = addr i := by
    rw [acceptMessage]
    split <;> exact haddr
  rcases acceptMessage_grants hmanages hgateway hne remote stamp with
    ⟨relative, hbody, hgrants⟩ | hbody
  · refine own_toBytes (by rw [hbody]; rfl) hown
      (fun _ _ hf => by rw [hbody] at hf; simp at hf) ?_
    rw [hbody]
    intro _
    exact ⟨hsettled, hstate ▸ hgrants⟩
  · refine own_toBytes (by rw [hbody]; rfl) hown
      (fun _ _ hf => by rw [hbody] at hf; simp at hf) ?_
    rw [hbody]
    intro hno
    exact absurd rfl hno

private theorem advances_answer (inp : Input) {round : Nat} {l : JoinLocals}
    (h : Known addr i ⟨.joining .drain round true l, n⟩ air)
    (hsound : ∀ q ∈ air, Sound addr q.1 q.2) {m : Message} {b : Bytes} {j : ι}
    (hair : (j, b) ∈ air) (hb : Reads b m.src m.body) {follower : Address}
    (hm : m.body = .follow n.state.address follower) :
    let r := Sending.flush (inp.now 2) inp.sent (accept m.src (inp.now 0) (inp.now 1) n).2
    Advances addr i air ⟨.joining .drain round true l, n⟩ ⟨.joining .drain round true l, r.2.1⟩
      r.2.2 := by
  intro r
  obtain ⟨hround, hmanages, htargets⟩ := h.place
  have hmanages : Manages n.state := hmanages rfl
  have hsrc := (hsound _ hair).source _ _ hb
  obtain ⟨hgateway, hother⟩ := (hsound _ hair).follow _ _ _ (hm ▸ hb)
  have hinit := hmanages.initialized
  have hstate : r.2.1.state = (assign m.src n).state := by
    rw [flush_state, accept_snd _ _ hinit, send_state]
  have hgrows : Grows ⟨.joining .drain round true l, n⟩ ⟨.joining .drain round true l, r.2.1⟩ := by
    obtain ⟨table, count, hkept⟩ := assign_kept m.src n
    refine ⟨fun _ => ⟨trivial, ?_⟩, fun _ => ⟨rfl, ?_⟩⟩
    · rw [hstate, hkept]
    · rw [hstate]
      exact assign_keeps m.src n
  have hmessage : Own addr i ⟨.joining .drain round true l, r.2.1⟩
      (acceptMessage m.src (inp.now 0) (inp.now 1) n).toBytes := by
    have hne : m.src ≠ n.state.address := by
      intro heq
      rw [hsrc] at heq
      exact hother heq.symm
    apply acceptMessage_own hmanages h.address (hsrc ▸ hgateway) hne hstate
    rfl
  obtain ⟨htx, hout⟩ := (accept_carries (fun b hb => (h.tx b hb).grows hgrows) (inp.now 0)
    (inp.now 1) hinit hmessage).flush (inp.now 2) inp.sent
  obtain ⟨table, count, hkept⟩ := assign_kept m.src n
  have hnext := assign_manages m.src hmanages
  refine ⟨⟨?_, ?_, fun hi => by simp at hi, ?_, fun b hb => h.rx b ?_, htx, ?_,
    ?_⟩, hgrows, hout⟩
  · rw [hstate, hkept]
    exact h.address
  · rw [hstate, hkept]
    exact h.gateway
  · intro _
    rw [hstate, hkept]
    exact h.room (by simp)
  · rw [flush_rx, accept_rx _ _ hinit] at hb
    exact hb
  · rw [hstate]
    refine ⟨hround, fun _ => hnext, ?_⟩
    rw [hkept]
    exact ⟨htargets.offered, htargets.closer, htargets.options, htargets.eligible⟩
  · intro _
    rw [hstate, hkept]
    exact (h.upstream (by simp)).imp_right fun hu => ⟨hu.accepted, hu.announced, hu.closer⟩

private theorem advances_join {round : Nat} {isClusterhead : Bool} {l : JoinLocals}
    (h : Known addr i ⟨.joining .drain round isClusterhead l, n⟩ air) {m : Message} {b : Bytes}
    {j : ι} (hair : (j, b) ∈ air) (hb : Reads b m.src m.body) {accepted start relative : UInt8}
    {remote : UInt32} (hm : m.body = .accept accepted n.state.address start relative remote)
    (haccepted : accepted ≠ 0) (hsrc : m.src = l.targetNode) (rand : UInt32) :
    Advances addr i air ⟨.joining .drain round isClusterhead l, n⟩
      ⟨.joining .drain round isClusterhead { l with joined := true },
        promote rand (attach l start relative n)⟩ [] := by
  obtain ⟨hround, hmanages, htargets⟩ := h.place
  have hupstream : l.targetNode = UNKNOWN_ADDR ∨
      Upstream addr i (attach l start relative n).state air := by
    by_cases hu : l.targetNode = UNKNOWN_ADDR
    · exact Or.inl hu
    · refine Or.inr ⟨⟨_, hair, accepted, remote, haccepted, ?_⟩,
        (htargets.offered.resolve_left hu).2, htargets.closer.resolve_left hu⟩
      rw [hm, hsrc] at hb
      have haddress : n.state.address = addr i := h.address
      rwa [haddress] at hb
  rcases promote_cases rand (attach l start relative n) with heq | ⟨hacts, -, heq⟩
  · have hgrows : Grows ⟨.joining .drain round isClusterhead l, n⟩
        ⟨.joining .drain round isClusterhead { l with joined := true },
          attach l start relative n⟩ :=
      ⟨fun _ => ⟨trivial, rfl⟩, fun hs => ⟨hs, rfl, UInt8.le_refl _, fun _ _ => rfl⟩⟩
    rw [heq]
    exact ⟨⟨h.address, h.gateway, fun hi => by simp at hi, fun _ => h.room (by simp), h.rx,
      fun b hb => (h.tx b hb).grows hgrows,
      ⟨hround, fun hch => ⟨(hmanages hch).acts, (hmanages hch).assigned, (hmanages hch).first⟩,
        ⟨htargets.offered, htargets.closer, htargets.options, htargets.eligible⟩⟩,
      fun _ => hupstream⟩, hgrows, not_of_no_frames⟩
  · have hnot : isClusterhead ≠ true := by
      intro hch
      have := (hmanages hch).acts
      exact absurd (this.symm.trans hacts) (by simp)
    have hrole : n.state.role ≠ .gateway := by
      intro hg
      have hacts : n.state.actsAsClusterhead = false := hacts
      rw [MultihopState.actsAsClusterhead, hg] at hacts
      exact absurd hacts (by decide)
    have hgrows : Grows ⟨.joining .drain round isClusterhead l, n⟩
        ⟨.joining .drain round isClusterhead { l with joined := true },
          prepareClusterhead (withRole .clusterhead (attach l start relative n))⟩ :=
      ⟨fun _ => ⟨trivial, rfl⟩, fun hs => absurd hs hnot⟩
    rw [heq]
    refine ⟨⟨h.address, ?_, fun hi => by simp at hi, fun _ => h.room (by simp), h.rx,
      fun b hb => (h.tx b hb).grows hgrows,
      ⟨hround, fun hch => absurd hch hnot,
        ⟨htargets.offered, htargets.closer, htargets.options, htargets.eligible⟩⟩,
      fun _ => hupstream.imp_right fun hu => ⟨hu.accepted, hu.announced, hu.closer⟩⟩, hgrows,
      not_of_no_frames⟩
    exact ⟨fun hg => absurd hg (by simp [prepareClusterhead, withRole]),
      fun hg => absurd (h.gateway.mpr hg) hrole⟩

private theorem trySecond_targets {s : MultihopState} {l : JoinLocals} (h : Targets addr i s air l)
    (heligible : l.eligibleFollower = true) (durationMs : UInt32) :
    Targets addr i s air (trySecond inp durationMs s l) := by
  obtain ⟨hoffered, hcloser⟩ := closer_offered (s := s) h.options.2
  have hfollower := h.eligible (Or.inl heligible)
  rw [trySecond]
  dsimp only
  split_ifs
  · exact h
  · exact ⟨hoffered, hcloser, h.options, fun _ => hfollower⟩
  · exact ⟨hoffered, hcloser, h.options, fun _ => hfollower⟩

def taken (n : Node) : Node := { n with link := (Queue.getmsg n.link).2 }

theorem getmsg_cases (n : Node) :
    (Queue.getmsg n.link).1 = none ∨
      ∃ b ∈ n.link.rx, (Queue.getmsg n.link).1 = some b := by
  rw [Queue.getmsg]
  cases hrx : n.link.rx with
  | nil => exact Or.inl rfl
  | cons b rest => exact Or.inr ⟨b, List.mem_cons_self, rfl⟩

private theorem taken_link (n : Node) :
    (taken n).link.tx = n.link.tx ∧ ∀ b ∈ (taken n).link.rx, b ∈ n.link.rx := by
  rw [taken, Queue.getmsg]
  cases hrx : n.link.rx with
  | nil =>
      refine ⟨rfl, ?_⟩
      intro b hb
      rwa [hrx] at hb
  | cons b rest => exact ⟨rfl, fun c hc => List.mem_cons_of_mem _ hc⟩

private theorem Known.taken {round : Nat} {isClusterhead : Bool} {l l' : JoinLocals}
    (h : Known addr i ⟨.joining .drain round isClusterhead l, n⟩ air) (stage : Stage)
    (htargets : Targets addr i n.state air l') :
    Known addr i ⟨.joining stage round isClusterhead l', Clusters.taken n⟩ air ∧
      Grows ⟨.joining .drain round isClusterhead l, n⟩
        ⟨.joining stage round isClusterhead l', Clusters.taken n⟩ := by
  have hgrows : Grows ⟨.joining .drain round isClusterhead l, n⟩
      ⟨.joining stage round isClusterhead l', Clusters.taken n⟩ :=
    Grows.of_state rfl (fun _ => trivial) id
  obtain ⟨hround, hmanages, -⟩ := h.place
  exact ⟨h.of_state (by simp) (by simp) rfl (fun b hb => h.rx b ((taken_link n).2 b hb))
    (fun b hb => (h.tx b ((taken_link n).1 ▸ hb)).grows hgrows) ⟨hround, hmanages, htargets⟩,
    hgrows⟩

private theorem advances_message {round : Nat} {isClusterhead : Bool} {l : JoinLocals}
    (h : Known addr i ⟨.joining .drain round isClusterhead l, n⟩ air)
    (hsound : ∀ q ∈ air, Sound addr q.1 q.2) :
    Advances addr i air ⟨.joining .drain round isClusterhead l, n⟩
      (joinMessage inp round isClusterhead l n).1 (joinMessage inp round isClusterhead l n).2 := by
  obtain ⟨-, -, htargets⟩ := h.place
  obtain ⟨hknown, hgrows⟩ := h.taken .drain htargets
  rw [joinMessage]
  dsimp only
  rw [← Clusters.taken]
  rcases hmsg : (Queue.getmsg n.link).1.bind decodeMsg with _ | ⟨m, tail⟩
  · obtain ⟨hhead, hgrows⟩ := h.taken .head htargets
    exact ⟨hhead, hgrows, not_of_no_frames⟩
  · obtain ⟨b, hget, hdec⟩ := Option.bind_eq_some_iff.mp hmsg
    obtain ⟨j, hair⟩ : ∃ j, (j, b) ∈ air := by
      rcases getmsg_cases n with hnone | ⟨c, hc, hsome⟩
      · rw [hnone] at hget
        exact absurd hget (by simp)
      · rw [hsome] at hget
        obtain rfl := Option.some.inj hget
        exact h.rx c hc
    have hreads : Reads b m.src m.body := ⟨m.sequence, tail, hdec⟩
    dsimp only
    rcases answerFollow_cases inp isClusterhead m (Clusters.taken n) with hanswer |
      ⟨follower, hbody, rfl, hanswer⟩
    · rw [hanswer]
      dsimp only
      rcases join_cases inp l m (Clusters.taken n) (roundMs (Clusters.taken n).mac) with hjoin |
        ⟨heligible, hjoin⟩ |
        ⟨accepted, start, relative, remote, hbody, haccepted, hsrc, -, -, hjoin⟩
      · rw [hjoin]
        exact ⟨hknown, hgrows, not_of_no_frames⟩
      · rw [hjoin]
        have htargets' : Targets addr i n.state air
            (trySecond inp (roundMs (Clusters.taken n).mac) n.state l) :=
          trySecond_targets htargets heligible _
        obtain ⟨hhead, hgrows⟩ := h.taken .head htargets'
        exact ⟨hhead, hgrows, not_of_no_frames⟩
      · rw [hjoin]
        obtain ⟨hknown', hgrows', hout⟩ :=
          advances_join hknown hair hreads hbody haccepted hsrc (inp.rand 0)
        exact ⟨hknown', ⟨hgrows'.past, hgrows'.settled⟩, hout⟩
    · have hjoin (n' : Node) (durationMs : UInt32) :
          join inp l m n' durationMs = (false, l, n') := by
        rw [join, hbody]
      rw [hanswer]
      dsimp only
      rw [hjoin]
      obtain ⟨hknown', hgrows', hout⟩ := advances_answer inp hknown hsound hair hreads hbody
      exact ⟨hknown', ⟨hgrows'.past, hgrows'.settled⟩, hout⟩

private theorem advances {p : Proc} (h : Known addr i p air)
    (hsound : ∀ q ∈ air, Sound addr q.1 q.2) (hheard : ∀ b ∈ inp.heard, ∃ j, (j, b) ∈ air) :
    Advances addr i air p (step inp p).1 (step inp p).2 := by
  obtain ⟨control, n⟩ := p
  cases control with
  | idle => exact advances_idle h
  | discovery l => exact advances_discovery h hheard
  | announcement round earlier l => exact advances_announcement h hheard
  | joining stage round isClusterhead l =>
      cases stage with
      | head => exact advances_head h
      | recv => exact advances_recv h hheard
      | drain => exact advances_message h hsound
  | done =>
      exact ⟨h, Grows.of_state rfl id id, not_of_no_frames⟩

theorem claims_kept (haddr : Function.Injective addr) :
    (claims addr).Kept machine fun _ _ => True where
  mono _ _ _ _ h := h.mono fun _ hq => List.mem_append_left _ hq
  step j p inp air hknown hsound hvouched _ hheard := by
    obtain ⟨hknown', hgrows, hout⟩ : Advances addr j air p (step inp p).1 (step inp p).2 :=
      advances hknown hsound fun b hb => (hheard b hb).imp fun _ hk => hk.1
    refine ⟨hknown'.mono fun _ hq => List.mem_append_left _ hq,
      fun q hq body hb => (hvouched q hq body hb).grows hgrows, ?_⟩
    intro b hb
    obtain ⟨f, hf, hbf⟩ := List.mem_flatMap.mp hb
    have hown := hout f hf b hbf
    refine ⟨hown.sound, hown.vouched, ?_⟩
    intro k hk _ body hbody
    exact absurd (haddr (hown.sound.source _ _ hbody)) hk

end Steps

end LoraMultihop.Multihop.Clusters
