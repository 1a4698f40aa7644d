/- digest: One announcement round, made by all the nodes of a ring. -/

import LoraMultihop.Multihop.Advertise

set_option autoImplicit false
set_option relaxedAutoImplicit false

namespace LoraMultihop.Multihop.Announcement

open LoraMultihop.Foundation.ByteMemory (Bytes)
open LoraMultihop.Net.Params
open LoraMultihop.Link
open LoraMultihop.Multihop.Messages
open LoraMultihop.Multihop.State
open LoraMultihop.Multihop.Sending
open LoraMultihop.Multihop.Discovery
open LoraMultihop.Multihop.Advertise

/-- The ring and the sender of a message that the decoder takes for an OpenCluster. -/
def announced (b : Bytes) : Option (Ring × Address) :=
  match decodeMsg b with
  | some (⟨_, src, .openCluster ring _ _⟩, _) => some (ring, src)
  | _ => none

/-- A pass of the announcement loop, with the locals and the node it begins with. -/
structure Pass where
  inp : Input
  locals : AnnounceLocals
  node : Node

def Pass.flushes (p : Pass) : Bool :=
  announces p.inp p.locals (recv (p.inp.now 0) p.inp.arrival p.node).2

def Pass.sent (p : Pass) : List Bytes :=
  (announcementPass p.inp p.locals p.node).2.2.flatMap Queue.Frame.msgs

def Pass.processed (p : Pass) : List Bytes :=
  (recv (p.inp.now 0) p.inp.arrival p.node).2.link.rx

def passes : List Input → AnnounceLocals → Node → List Pass
  | [], _, _ => []
  | inp :: inps, l, n =>
      if l.phaseDeadline.reached (inp.millis 0) then []
      else
        let (l', n', _) := announcementPass inp l n
        ⟨inp, l, n⟩ :: passes inps l' n'

def returned : List Input → AnnounceLocals → Node → Option Bool
  | [], _, _ => none
  | inp :: inps, l, n =>
      if l.phaseDeadline.reached (inp.millis 0) then some l.isClusterhead
      else
        let (l', n', _) := announcementPass inp l n
        returned inps l' n'

/-- A call of `run_clusterhead_announcement` with `ch_earlier_round = false`: the node, what it
reads before the loop and what each pass reads. -/
structure Call where
  node : Node
  start : Input
  inputs : List Input

def Call.begin (durationMs : UInt32) (eligibleRing : Ring) (c : Call) : AnnounceLocals × Node :=
  startAnnouncement c.start durationMs eligibleRing false c.node

def Call.passes (durationMs : UInt32) (eligibleRing : Ring) (c : Call) : List Pass :=
  Announcement.passes c.inputs (c.begin durationMs eligibleRing).1
    (c.begin durationMs eligibleRing).2

def Call.returned (durationMs : UInt32) (eligibleRing : Ring) (c : Call) : Option Bool :=
  Announcement.returned c.inputs (c.begin durationMs eligibleRing).1
    (c.begin durationMs eligibleRing).2

/-- The members of a ring make the call. Every OpenCluster one of them flushes is processed by all
the others, and those of the ring that a member processes come from one that flushed. -/
structure Round (members : Finset Address) where
  durationMs : UInt32
  eligibleRing : Ring
  ring : Ring
  call : Address → Call
  address : ∀ a ∈ members, (call a).node.state.address = a
  sameRing : ∀ a ∈ members, (call a).node.state.ring = ring
  ended : ∀ a ∈ members, ((call a).returned durationMs eligibleRing).isSome = true
  delivered : ∀ a ∈ members, ∀ p ∈ (call a).passes durationMs eligibleRing, ∀ b ∈ p.sent,
    (announced b).isSome = true → ∀ c ∈ members, c ≠ a →
      ∃ q ∈ (call c).passes durationMs eligibleRing, b ∈ q.processed
  heard : ∀ a ∈ members, ∀ p ∈ (call a).passes durationMs eligibleRing, ∀ b ∈ p.processed,
    ∀ src, announced b = some (ring, src) → src ≠ a →
      src ∈ members ∧ ∃ q ∈ (call src).passes durationMs eligibleRing, q.flushes = true

section Rounds

variable {members : Finset Address}

def Round.Flushed (r : Round members) (a : Address) : Prop :=
  ∃ p ∈ (r.call a).passes r.durationMs r.eligibleRing, p.flushes = true

def Round.returned (r : Round members) (a : Address) : Option Bool :=
  (r.call a).returned r.durationMs r.eligibleRing

end Rounds

/-- The sender of an OpenCluster that makes a volunteer of `s` look at its address. -/
def Peer (s : MultihopState) (b : Bytes) (src : Address) : Prop :=
  announced b = some (s.ring, src) ∧ src ≠ s.address

private theorem hearPeer_cases (s : MultihopState) (l : AnnounceLocals) (b : Bytes) :
    (hearPeer s l b).isClusterhead = false ∧ (hearPeer s l b).needToAnnounce = false ∧
        (∃ src, Peer s b src ∧ (l.needToAnnounce = true ∨ s.address < src)) ∨
      (hearPeer s l b).isClusterhead = l.isClusterhead ∧
        (hearPeer s l b).needToAnnounce = l.needToAnnounce ∧
        (l.isClusterhead = true → ∀ src, Peer s b src →
          l.needToAnnounce = false ∧ ¬ s.address < src) := by
  unfold Peer
  rw [hearPeer, announced]
  cases decodeMsg b with
  | none =>
      refine Or.inr ⟨rfl, rfl, ?_⟩
      rintro - src ⟨heq, -⟩
      exact absurd heq (by simp)
  | some decoded =>
      obtain ⟨⟨sequence, src, body⟩, rest⟩ := decoded
      cases body with
      | openCluster ring node neighbors =>
          dsimp only
          split_ifs with hsrc hyield
          · refine Or.inr ⟨rfl, rfl, ?_⟩
            rintro - src' ⟨heq, hne⟩
            simp only [Option.some.injEq, Prod.mk.injEq] at heq
            exact absurd (heq.2 ▸ hsrc) hne
          · exact Or.inl ⟨rfl, rfl, src, ⟨by rw [hyield.2.1], hsrc⟩, hyield.2.2⟩
          · refine Or.inr ⟨rfl, rfl, ?_⟩
            rintro hch src' ⟨heq, -⟩
            simp only [Option.some.injEq, Prod.mk.injEq] at heq
            obtain ⟨hring, rfl⟩ := heq
            have hno : ¬(l.needToAnnounce = true ∨ s.address < src) := fun h =>
              hyield ⟨hch, hring, h⟩
            exact ⟨Bool.eq_false_iff.mpr fun h => hno (Or.inl h), fun h => hno (Or.inr h)⟩
      | _ =>
          refine Or.inr ⟨rfl, rfl, ?_⟩
          rintro - src' ⟨heq, -⟩
          exact absurd heq (by simp)

private theorem hearPeers_withdrawn (s : MultihopState) {l : AnnounceLocals} (msgs : List Bytes)
    (h : l.isClusterhead = false) : (msgs.foldl (hearPeer s) l).isClusterhead = false := by
  rcases hearPeers_locals s l msgs with ⟨hch, -⟩ | ⟨hch, -⟩
  · exact hch.trans h
  · rw [h] at hch
    exact absurd hch (by simp)

private theorem hearPeers_due (s : MultihopState) {l : AnnounceLocals} {msgs : List Bytes}
    (hdue : l.isClusterhead = true → l.needToAnnounce = true) {b : Bytes} (hb : b ∈ msgs)
    {src : Address} (hpeer : Peer s b src) :
    (msgs.foldl (hearPeer s) l).isClusterhead = false := by
  induction msgs generalizing l with
  | nil => exact absurd hb List.not_mem_nil
  | cons c msgs ih =>
      rw [List.foldl_cons]
      rcases hearPeer_cases s l c with ⟨hch, -, -⟩ | ⟨hch, hneed, hkept⟩
      · exact hearPeers_withdrawn s msgs hch
      · cases List.mem_cons.mp hb with
        | inl hbc =>
            subst hbc
            apply hearPeers_withdrawn
            rw [hch]
            by_contra htrue
            have htrue : l.isClusterhead = true := by simpa using htrue
            have hno := (hkept htrue src hpeer).1
            rw [hdue htrue] at hno
            exact absurd hno (by simp)
        | inr hb =>
            apply ih _ hb
            rw [hch, hneed]
            exact hdue

private theorem hearPeers_higher (s : MultihopState) (l : AnnounceLocals) {msgs : List Bytes}
    {b : Bytes} (hb : b ∈ msgs) {src : Address} (hpeer : Peer s b src) (hlt : s.address < src) :
    (msgs.foldl (hearPeer s) l).isClusterhead = false := by
  induction msgs generalizing l with
  | nil => exact absurd hb List.not_mem_nil
  | cons c msgs ih =>
      rw [List.foldl_cons]
      cases List.mem_cons.mp hb with
      | inl hbc =>
          subst hbc
          apply hearPeers_withdrawn
          rcases hearPeer_cases s l b with ⟨hch, -, -⟩ | ⟨hch, -, hkept⟩
          · exact hch
          · rw [hch]
            by_contra htrue
            exact (hkept (by simpa using htrue) src hpeer).2 hlt
      | inr hb => exact ih _ hb

private theorem hearPeers_highest (s : MultihopState) {l : AnnounceLocals} {msgs : List Bytes}
    (hch : l.isClusterhead = true) (hneed : l.needToAnnounce = false)
    (hlow : ∀ b ∈ msgs, ∀ src, Peer s b src → ¬ s.address < src) :
    (msgs.foldl (hearPeer s) l).isClusterhead = true ∧
      (msgs.foldl (hearPeer s) l).needToAnnounce = false := by
  induction msgs generalizing l with
  | nil => exact ⟨hch, hneed⟩
  | cons c msgs ih =>
      rw [List.foldl_cons]
      rcases hearPeer_cases s l c with ⟨-, -, src, hpeer, hcause⟩ | ⟨hch', hneed', -⟩
      · cases hcause with
        | inl hdue =>
            rw [hneed] at hdue
            exact absurd hdue (by simp)
        | inr hlt => exact absurd hlt (hlow c List.mem_cons_self src hpeer)
      · apply ih (hch'.trans hch) (hneed'.trans hneed)
        intro b hb
        exact hlow b (List.mem_cons_of_mem c hb)

private theorem pass_locals (inp : Input) (l : AnnounceLocals) (n : Node) :
    ∃ l' : AnnounceLocals, l'.isClusterhead = l.isClusterhead ∧
      l'.needToAnnounce = (l.needToAnnounce && !(Pass.mk inp l n).flushes) ∧
      (announcementPass inp l n).1 =
        (Pass.mk inp l n).processed.foldl (hearPeer n.state) l' := by
  obtain ⟨hch, hneed⟩ := announceCluster_locals inp l (recv (inp.now 0) inp.arrival n).2
  refine ⟨_, hch, hneed, ?_⟩
  rw [announcementPass]
  dsimp only
  rw [announceCluster_rx, announceCluster_state, recv_state]
  rfl

section Loop

variable {inps : List Input} {l : AnnounceLocals} {n : Node}

theorem loop_cases (inp : Input) (inps : List Input) (l : AnnounceLocals) (n : Node) :
    passes (inp :: inps) l n = [] ∧ returned (inp :: inps) l n = some l.isClusterhead ∨
      passes (inp :: inps) l n =
          ⟨inp, l, n⟩ :: passes inps (announcementPass inp l n).1 (announcementPass inp l n).2.1 ∧
        returned (inp :: inps) l n =
          returned inps (announcementPass inp l n).1 (announcementPass inp l n).2.1 := by
  rw [passes, returned]
  dsimp only
  split_ifs
  · exact Or.inl ⟨rfl, rfl⟩
  · exact Or.inr ⟨rfl, rfl⟩

private theorem pass_due {inp : Input} (hquiet : (Pass.mk inp l n).flushes = false)
    (hdue : l.isClusterhead = true → l.needToAnnounce = true) :
    (announcementPass inp l n).1.isClusterhead = true →
      (announcementPass inp l n).1.needToAnnounce = true := by
  intro h
  rcases announcementPass_locals inp l n with ⟨hch, hneed⟩ | ⟨-, hch, -⟩
  · rw [hneed, hdue (hch ▸ h)]
    change (true && !(Pass.mk inp l n).flushes) = true
    rw [hquiet]
    rfl
  · exact absurd (hch.symm.trans h) (by simp)

private theorem pass_volunteers {inp : Input}
    (hdue : l.needToAnnounce = true → l.isClusterhead = true) :
    (announcementPass inp l n).1.needToAnnounce = true →
      (announcementPass inp l n).1.isClusterhead = true := by
  intro h
  rcases announcementPass_locals inp l n with ⟨hch, hneed⟩ | ⟨-, -, hneed⟩
  · rw [hneed, Bool.and_eq_true] at h
    exact hch.trans (hdue h.1)
  · exact absurd (hneed.symm.trans h) (by simp)

private theorem pass_highest {inp : Input} (hch : l.isClusterhead = true)
    (hneed : l.needToAnnounce = false ∨ (Pass.mk inp l n).flushes = true)
    (hlow : ∀ b ∈ (Pass.mk inp l n).processed, ∀ src, Peer n.state b src →
      ¬ n.state.address < src) :
    (announcementPass inp l n).1.isClusterhead = true ∧
      (announcementPass inp l n).1.needToAnnounce = false := by
  obtain ⟨l', hch', hneed', hpass⟩ := pass_locals inp l n
  have hdone : l'.needToAnnounce = false := by
    rw [hneed']
    cases hneed with
    | inl hno => rw [hno, Bool.false_and]
    | inr hflush => rw [hflush, Bool.not_true, Bool.and_false]
  rw [hpass]
  exact hearPeers_highest n.state (hch'.trans hch) hdone hlow

private theorem returned_withdrawn (h : l.isClusterhead = false) :
    returned inps l n ≠ some true := by
  induction inps generalizing l n with
  | nil => simp [returned]
  | cons inp inps ih =>
      rcases loop_cases inp inps l n with ⟨-, hr⟩ | ⟨-, hr⟩
      · rw [hr, h]
        simp
      · rw [hr]
        apply ih
        rw [Bool.eq_false_iff] at h ⊢
        exact mt (announcementPass_not_raised inp l n).1 h

private theorem returned_higher {p : Pass} (hp : p ∈ passes inps l n) {b : Bytes}
    (hb : b ∈ p.processed)
    {src : Address} (hpeer : Peer n.state b src) (hlt : n.state.address < src) :
    returned inps l n ≠ some true := by
  induction inps generalizing l n with
  | nil => exact absurd hp List.not_mem_nil
  | cons inp inps ih =>
      rcases loop_cases inp inps l n with ⟨hnone, -⟩ | ⟨hsome, hr⟩
      · rw [hnone] at hp
        exact absurd hp List.not_mem_nil
      · rw [hsome] at hp
        rw [hr]
        cases List.mem_cons.mp hp with
        | inl hhere =>
            subst hhere
            apply returned_withdrawn
            obtain ⟨l', -, -, hpass⟩ := pass_locals inp l n
            rw [hpass]
            exact hearPeers_higher _ _ hb hpeer hlt
        | inr hlater =>
            have hstate := announcementPass_state inp l n
            exact ih hlater (hstate ▸ hpeer) (hstate ▸ hlt)

private theorem returned_unannounced (hdue : l.isClusterhead = true → l.needToAnnounce = true)
    (hquiet : ∀ p ∈ passes inps l n, p.flushes = false) {p : Pass} (hp : p ∈ passes inps l n)
    {b : Bytes} (hb : b ∈ p.processed) {src : Address} (hpeer : Peer n.state b src) :
    returned inps l n ≠ some true := by
  induction inps generalizing l n with
  | nil => exact absurd hp List.not_mem_nil
  | cons inp inps ih =>
      rcases loop_cases inp inps l n with ⟨hnone, -⟩ | ⟨hsome, hr⟩
      · rw [hnone] at hp
        exact absurd hp List.not_mem_nil
      · rw [hsome] at hp hquiet
        rw [hr]
        have hhere := hquiet _ List.mem_cons_self
        cases List.mem_cons.mp hp with
        | inl heq =>
            subst heq
            apply returned_withdrawn
            obtain ⟨l', hch, hneed, hpass⟩ := pass_locals inp l n
            rw [hpass]
            apply hearPeers_due _ _ hb hpeer
            intro h
            rw [hneed, hhere, hdue (hch ▸ h)]
            rfl
        | inr hlater =>
            have hstate := announcementPass_state inp l n
            exact ih (pass_due hhere hdue) (fun q hq => hquiet q (List.mem_cons_of_mem _ hq))
              hlater (hstate ▸ hpeer)

private theorem returned_announced (hch : l.isClusterhead = true) (hneed : l.needToAnnounce = false)
    (hlow : ∀ p ∈ passes inps l n, ∀ b ∈ p.processed, ∀ src, Peer n.state b src →
      ¬ n.state.address < src)
    (hended : (returned inps l n).isSome = true) : returned inps l n = some true := by
  induction inps generalizing l n with
  | nil => exact absurd hended (by simp [returned])
  | cons inp inps ih =>
      rcases loop_cases inp inps l n with ⟨-, hr⟩ | ⟨hsome, hr⟩
      · rw [hr, hch]
      · rw [hsome] at hlow
        rw [hr] at hended ⊢
        obtain ⟨hch', hneed'⟩ := pass_highest hch (Or.inl hneed) (hlow _ List.mem_cons_self)
        apply ih hch' hneed' _ hended
        rw [announcementPass_state]
        exact fun q hq => hlow q (List.mem_cons_of_mem _ hq)

private theorem returned_flushed (hdue : l.needToAnnounce = true → l.isClusterhead = true)
    {p : Pass} (hp : p ∈ passes inps l n) (hflush : p.flushes = true)
    (hlow : ∀ p ∈ passes inps l n, ∀ b ∈ p.processed, ∀ src, Peer n.state b src →
      ¬ n.state.address < src)
    (hended : (returned inps l n).isSome = true) : returned inps l n = some true := by
  induction inps generalizing l n with
  | nil => exact absurd hp List.not_mem_nil
  | cons inp inps ih =>
      rcases loop_cases inp inps l n with ⟨hnone, -⟩ | ⟨hsome, hr⟩
      · rw [hnone] at hp
        exact absurd hp List.not_mem_nil
      · rw [hsome] at hp hlow
        rw [hr] at hended ⊢
        have hlater : ∀ q ∈ passes inps (announcementPass inp l n).1
            (announcementPass inp l n).2.1, ∀ b ∈ q.processed, ∀ src,
              Peer (announcementPass inp l n).2.1.state b src →
                ¬ (announcementPass inp l n).2.1.state.address < src := by
          rw [announcementPass_state]
          exact fun q hq => hlow q (List.mem_cons_of_mem _ hq)
        cases List.mem_cons.mp hp with
        | inl hhere =>
            subst hhere
            have hneed : l.needToAnnounce = true := by
              have := hflush
              simp only [Pass.flushes, announces, Bool.and_eq_true] at this
              exact this.1.1.1
            obtain ⟨hch', hneed'⟩ :=
              pass_highest (hdue hneed) (Or.inr hflush) (hlow _ List.mem_cons_self)
            exact returned_announced hch' hneed' hlater hended
        | inr hthen => exact ih (pass_volunteers hdue) hthen hlater hended

theorem passes_state {p : Pass} (hp : p ∈ passes inps l n) : p.node.state = n.state := by
  induction inps generalizing l n with
  | nil => exact absurd hp List.not_mem_nil
  | cons inp inps ih =>
      rcases loop_cases inp inps l n with ⟨hnone, -⟩ | ⟨hsome, -⟩
      · rw [hnone] at hp
        exact absurd hp List.not_mem_nil
      · rw [hsome] at hp
        cases List.mem_cons.mp hp with
        | inl hhere => rw [hhere]
        | inr hlater => exact (ih hlater).trans (announcementPass_state inp l n)

theorem passes_cons {q : Pass} {rest : List Pass} (h : passes inps l n = q :: rest) :
    q.locals = l ∧ q.node = n ∧
      ∃ inps', rest =
        passes inps' (announcementPass q.inp l n).1 (announcementPass q.inp l n).2.1 := by
  cases inps with
  | nil => exact absurd h (by simp [passes])
  | cons inp inps =>
      rcases loop_cases inp inps l n with ⟨hnone, -⟩ | ⟨hsome, -⟩
      · rw [hnone] at h
        exact absurd h (by simp)
      · rw [hsome] at h
        obtain ⟨rfl, rfl⟩ := List.cons.inj h
        exact ⟨rfl, rfl, inps, rfl⟩

end Loop

private theorem openCluster_sent {n : Node} {stamp now : UInt32} {sent : Bool}
    (hopen : (openCluster stamp n).1 = .ok)
    (hflush : (Sending.flush now sent (openCluster stamp n).2).1 = .ok) :
    ∃ b ∈ (Sending.flush now sent (openCluster stamp n).2).2.2.flatMap Queue.Frame.msgs,
      announced b = some (n.state.ring, n.state.address) := by
  have hout : GoesOut now sent (openCluster stamp n).2 := by
    by_contra hno
    exact (flush_kept hno).1 hflush
  rw [flush_out hout, List.flatMap_singleton]
  rw [openCluster] at hopen ⊢
  split_ifs at hopen ⊢ with hi
  let m : Message :=
    ⟨stamp, n.state.address, .openCluster n.state.ring n.state.address n.state.neighbors⟩
  rcases send_cases m [] n with ⟨-, -, hn⟩ | ⟨hno, -, -⟩
  · refine ⟨m.toBytes ++ [], ?_, ?_⟩
    · rw [hn]
      exact List.mem_append_right _ (List.mem_singleton.mpr rfl)
    · rw [announced, decodeMsg_toBytes (show m.body.Fits [] from rfl)]
  · exact absurd hopen hno

private theorem Pass.flushes_sent {p : Pass} (h : p.flushes = true) :
    ∃ b ∈ p.sent, announced b = some (p.node.state.ring, p.node.state.address) := by
  obtain ⟨inp, l, n⟩ := p
  simp only [flushes, announces, Bool.and_eq_true, decide_eq_true_eq] at h
  obtain ⟨⟨hdue, hopen⟩, hflush⟩ := h
  have hsent : (Pass.mk inp l n).sent =
      (Sending.flush (inp.now 2) inp.sent
        (openCluster (inp.now 1) (recv (inp.now 0) inp.arrival n).2).2).2.2.flatMap
          Queue.Frame.msgs := by
    rw [sent, announcementPass]
    dsimp only
    rw [announceCluster, if_pos (by rw [hdue.1, hdue.2]; rfl)]
    dsimp only
    rw [if_pos hopen]
  rw [hsent]
  exact openCluster_sent hopen hflush

section Rounds

variable {members : Finset Address} (r : Round members)

theorem begin_state (durationMs : UInt32) (eligibleRing : Ring) (c : Call) :
    (c.begin durationMs eligibleRing).2.state.address = c.node.state.address ∧
      (c.begin durationMs eligibleRing).2.state.ring = c.node.state.ring ∧
      (c.begin durationMs eligibleRing).1.needToAnnounce =
        (c.begin durationMs eligibleRing).1.isClusterhead := by
  rw [Call.begin, startAnnouncement]
  dsimp only
  split_ifs <;> exact ⟨rfl, rfl, by simp⟩

private theorem Round.hears {a c : Address} (ha : a ∈ members) (hc : c ∈ members) (hne : c ≠ a)
    (hflushed : r.Flushed a) :
    ∃ q ∈ (r.call c).passes r.durationMs r.eligibleRing, ∃ b ∈ q.processed,
      Peer ((r.call c).begin r.durationMs r.eligibleRing).2.state b a := by
  obtain ⟨p, hp, hflush⟩ := hflushed
  obtain ⟨b, hb, hannounced⟩ := p.flushes_sent hflush
  obtain ⟨haddr, hring, -⟩ := begin_state r.durationMs r.eligibleRing (r.call a)
  obtain ⟨haddr', hring', -⟩ := begin_state r.durationMs r.eligibleRing (r.call c)
  rw [passes_state hp, haddr, hring, r.address a ha, r.sameRing a ha] at hannounced
  obtain ⟨q, hq, hbq⟩ := r.delivered a ha p hp b hb (by rw [hannounced]; rfl) c hc hne
  refine ⟨q, hq, b, hbq, ?_, ?_⟩
  · rw [hring', r.sameRing c hc, hannounced]
  · rw [haddr', r.address c hc]
    exact hne.symm

private theorem Round.peer_flushed {a src : Address} (ha : a ∈ members) {p : Pass}
    (hp : p ∈ (r.call a).passes r.durationMs r.eligibleRing) {b : Bytes} (hb : b ∈ p.processed)
    (hpeer : Peer ((r.call a).begin r.durationMs r.eligibleRing).2.state b src) :
    src ∈ members ∧ r.Flushed src := by
  obtain ⟨haddr, hring, -⟩ := begin_state r.durationMs r.eligibleRing (r.call a)
  obtain ⟨hannounced, hne⟩ := hpeer
  rw [hring, r.sameRing a ha] at hannounced
  rw [haddr, r.address a ha] at hne
  exact r.heard a ha p hp b hb src hannounced hne

private theorem Round.highest_wins {a : Address} (ha : a ∈ members) (hflushed : r.Flushed a)
    (hmax : ∀ c ∈ members, r.Flushed c → c ≤ a) : r.returned a = some true := by
  obtain ⟨p, hp, hflush⟩ := hflushed
  obtain ⟨haddr, -, hdue⟩ := begin_state r.durationMs r.eligibleRing (r.call a)
  refine returned_flushed (fun h => hdue ▸ h) hp hflush ?_ (r.ended a ha)
  intro q hq b hb src hpeer
  obtain ⟨hmem, hsrc⟩ := r.peer_flushed ha hq hb hpeer
  rw [haddr, r.address a ha]
  exact UInt8.not_lt.mpr (hmax src hmem hsrc)

private theorem Round.others_lose {a c : Address} (ha : a ∈ members) (hflushed : r.Flushed a)
    (hmax : ∀ c ∈ members, r.Flushed c → c ≤ a) (hc : c ∈ members) (hne : c ≠ a) :
    r.returned c ≠ some true := by
  obtain ⟨q, hq, b, hb, hpeer⟩ := r.hears ha hc hne hflushed
  obtain ⟨haddr, -, hdue⟩ := begin_state r.durationMs r.eligibleRing (r.call c)
  by_cases hquiet : ∀ p ∈ (r.call c).passes r.durationMs r.eligibleRing, p.flushes = false
  · exact returned_unannounced (fun h => hdue.trans h) hquiet hq hb hpeer
  · simp only [not_forall, Bool.not_eq_false] at hquiet
    obtain ⟨p, hp, hflush⟩ := hquiet
    have hle := hmax c hc ⟨p, hp, hflush⟩
    apply returned_higher hq hb hpeer
    rw [haddr, r.address c hc]
    exact UInt8.lt_of_le_of_ne hle hne

/-- Where a member of the ring has flushed its OpenCluster, the call returns true for exactly one
member: the one of highest address among those that flushed. -/
theorem highest_announcer_wins (h : ∃ a ∈ members, r.Flushed a) :
    ∃ a ∈ members, r.Flushed a ∧ (∀ c ∈ members, r.Flushed c → c ≤ a) ∧
      ∀ c ∈ members, r.returned c = some true ↔ c = a := by
  classical
  obtain ⟨a₀, ha₀, hflushed₀⟩ := h
  obtain ⟨a, hmem, hmax⟩ := Finset.exists_max_image (members.filter r.Flushed) UInt8.toNat
    ⟨a₀, Finset.mem_filter.mpr ⟨ha₀, hflushed₀⟩⟩
  obtain ⟨ha, hflushed⟩ := Finset.mem_filter.mp hmem
  have hmax' : ∀ c ∈ members, r.Flushed c → c ≤ a := fun c hc hf =>
    hmax c (Finset.mem_filter.mpr ⟨hc, hf⟩)
  refine ⟨a, ha, hflushed, hmax', ?_⟩
  intro c hc
  constructor
  · intro hwins
    by_contra hne
    exact r.others_lose ha hflushed hmax' hc hne hwins
  · rintro rfl
    exact r.highest_wins ha hflushed hmax'

end Rounds

/-- A node of the first ring that volunteers, announces itself at once and then hears its peer. -/
def rivalCall (a peer : Address) : Call where
  node := { setupNode a with state := { (setupNode a).state with ring := 1 } }
  start := reading 1000 72 .timedOut
  inputs :=
    [reading 1001 72 .timedOut,
      reading 1100 72 (.accepted [Message.toBytes ⟨72, peer, .openCluster 1 peer RingList.empty⟩]),
      reading 1301 72 .timedOut]

def rival (a : Address) : Call := if a = 3 then rivalCall 3 4 else rivalCall 4 3

private theorem rivals_hear :
    ∀ a ∈ ({3, 4} : Finset Address), ∀ c ∈ ({3, 4} : Finset Address), c ≠ a →
    ∀ p ∈ (rival a).passes 300 1, ∀ b ∈ p.sent,
      ∃ q ∈ (rival c).passes 300 1, b ∈ q.processed := by
  decide +kernel

private theorem rivals_peer : ∀ a ∈ ({3, 4} : Finset Address), ∀ p ∈ (rival a).passes 300 1,
    ∀ b ∈ p.processed, announced b = some (1, if a = 3 then 4 else 3) := by
  decide +kernel

private theorem rivals_flush : ∀ a ∈ ({3, 4} : Finset Address),
    ∃ q ∈ (rival a).passes 300 1, q.flushes = true := by
  decide +kernel

/-- Two nodes that announce themselves before either hears the other. -/
def rivals : Round {3, 4} where
  durationMs := 300
  eligibleRing := 1
  ring := 1
  call := rival
  address := by decide +kernel
  sameRing := by decide +kernel
  ended := by decide +kernel
  delivered a ha p hp b hb _ c hc hne := rivals_hear a ha c hc hne p hp b hb
  heard := by
    intro a ha p hp b hb src hsrc _
    have hpeer := (rivals_peer a ha p hp b hb).symm.trans hsrc
    simp only [Option.some.injEq, Prod.mk.injEq, true_and] at hpeer
    have hmem : src ∈ ({3, 4} : Finset Address) := by
      rw [← hpeer]
      split_ifs <;> decide
    exact ⟨hmem, rivals_flush src hmem⟩

theorem higher_rival_wins :
    ∃ a ∈ ({3, 4} : Finset Address), rivals.Flushed a ∧
      (∀ c ∈ ({3, 4} : Finset Address), rivals.Flushed c → c ≤ a) ∧
      ∀ c ∈ ({3, 4} : Finset Address), rivals.returned c = some true ↔ c = a :=
  highest_announcer_wins rivals ⟨4, by decide, rivals_flush 4 (by decide)⟩

end LoraMultihop.Multihop.Announcement
