/- digest: Which datagram the ack that a follower ends a superframe with stands for. -/

import LoraMultihop.Multihop.Acks
import LoraMultihop.Multihop.Network

set_option autoImplicit false
set_option relaxedAutoImplicit false

namespace LoraMultihop.Multihop.Handshake

open LoraMultihop.Foundation.ByteMemory (Bytes)
open LoraMultihop.Net.Params
open LoraMultihop.Link
open LoraMultihop.Multihop.Messages
open LoraMultihop.Multihop.State
open LoraMultihop.Multihop.Sending
open LoraMultihop.Multihop.Slots
open LoraMultihop.Multihop.Relay
open LoraMultihop.Multihop.Acks
open LoraMultihop.Multihop.Traffic (Makes Moves delivered)
open LoraMultihop.Multihop.Network (recv_rx_of_ok)

def datagramSequence (b : Bytes) : Option UInt32 :=
  match decodeMsg b with
  | some (⟨sequence, _, .datagram _ _ _⟩, _) => some sequence
  | _ => none

def lastSequence (msgs : List Bytes) : Option UInt32 := (msgs.filterMap datagramSequence).getLast?

/-- The messages that a call of `do_clusterhead_recv` takes in relative slot `relative`. -/
def heardIn (relative : UInt8) (inp : RecvInput) (n : Node) : List Bytes :=
  if listensTo (activeSlot inp.slotNow n).1 n = some relative ∧
      (Queue.recv inp.recvNow inp.arrival
        (setCdmaCode relative (activeSlot inp.slotNow n).2).link).1 = .ok then delivered inp.arrival
  else []

/-- The messages that the calls of a superframe take in that slot, in order. -/
def heardOver (relative : UInt8) : List (List UInt32 × RecvInput) → Node → List Bytes
  | [], _ => []
  | r :: recvs, n =>
      heardIn relative r.2 (poll r.1 n) ++
        heardOver relative recvs (doClusterheadRecv r.2 (poll r.1 n)).2

section Sequences

private theorem lastSequence_cons (b : Bytes) (msgs : List Bytes) :
    lastSequence (b :: msgs) = (lastSequence msgs).or (datagramSequence b) := by
  rw [lastSequence, lastSequence, List.filterMap_cons]
  cases datagramSequence b with
  | none => exact (Option.or_none).symm
  | some sequence =>
      dsimp only
      rw [List.getLast?_cons]
      cases (msgs.filterMap datagramSequence).getLast? <;> rfl

private theorem lastSequence_append (first second : List Bytes) :
    lastSequence (first ++ second) = (lastSequence second).or (lastSequence first) := by
  rw [lastSequence, List.filterMap_append, List.getLast?_append]
  rfl

end Sequences

section Recording

variable {relative : UInt8} {n : Node}

private theorem takeDatagram_acks (i : Nat) (b : Bytes) : (takeDatagram relative n b).state.acks i =
    if i = relative.toNat then (datagramSequence b).getD (n.state.acks i) else n.state.acks i := by
  rw [takeDatagram, datagramSequence]
  rcases decodeMsg b with _ | ⟨⟨sequence, src, body⟩, fragment⟩
  · split_ifs <;> rfl
  · cases body with
    | datagram bytes count part => rfl
    | _ => split_ifs <;> rfl

private theorem takeDatagrams_acks (i : Nat) (msgs : List Bytes) :
    (msgs.foldl (takeDatagram relative) n).state.acks i =
      if i = relative.toNat then (lastSequence msgs).getD (n.state.acks i)
      else n.state.acks i := by
  induction msgs generalizing n with
  | nil => split_ifs <;> rfl
  | cons b msgs ih =>
      rw [List.foldl_cons, ih, takeDatagram_acks, lastSequence_cons]
      split_ifs
      · cases lastSequence msgs <;> rfl
      · rfl

private theorem doClusterheadRecv_acks (relative : UInt8) (inp : RecvInput) (n : Node) :
    (doClusterheadRecv inp n).2.state.acks relative.toNat =
      (lastSequence (heardIn relative inp n)).getD (n.state.acks relative.toNat) := by
  have hsame : (activeSlot inp.slotNow n).2.state = n.state := rfl
  have hlistens : listensTo (activeSlot inp.slotNow n).1 (activeSlot inp.slotNow n).2 =
      listensTo (activeSlot inp.slotNow n).1 n := rfl
  rw [doClusterheadRecv, heardIn]
  dsimp only
  rw [hlistens]
  cases hlisten : listensTo (activeSlot inp.slotNow n).1 n with
  | none =>
      rw [if_neg (fun h => absurd h.1 (by simp))]
      rfl
  | some slot =>
      dsimp only
      by_cases hok : (Queue.recv inp.recvNow inp.arrival
          (setCdmaCode slot (activeSlot inp.slotNow n).2).link).1 = .ok
      · rw [if_neg (not_not.mpr hok), takeDatagrams_acks, recv_rx_of_ok hok]
        by_cases hslot : slot = relative
        · subst hslot
          rw [if_pos rfl, if_pos ⟨rfl, hok⟩]
          rfl
        · rw [if_neg (fun h => hslot (UInt8.toNat_inj.mp h).symm),
            if_neg (fun h => hslot (Option.some.inj h.1))]
          rfl
      · have hno : ¬ (some slot = some relative ∧ (Queue.recv inp.recvNow inp.arrival
            (setCdmaCode relative (activeSlot inp.slotNow n).2).link).1 = .ok) := by
          rintro ⟨hslot, hok'⟩
          cases hslot
          exact hok hok'
        rw [if_pos hok, if_neg hno]
        rfl

private theorem recvs_acks (relative : UInt8) (recvs : List (List UInt32 × RecvInput)) (n : Node) :
    (recvs.foldl (fun n r => (doClusterheadRecv r.2 (poll r.1 n)).2) n).state.acks
        relative.toNat =
      (lastSequence (heardOver relative recvs n)).getD (n.state.acks relative.toNat) := by
  induction recvs generalizing n with
  | nil => rfl
  | cons r recvs ih =>
      rw [List.foldl_cons, ih, doClusterheadRecv_acks, (poll_state r.1 n).1, heardOver,
        lastSequence_append]
      cases lastSequence (heardOver relative recvs (doClusterheadRecv r.2 (poll r.1 n)).2) <;> rfl

private theorem isSendAcks_datagram {b : Bytes} (h : isDatagram b = true) :
    isSendAcks b = false := by
  rw [isDatagram] at h
  rw [isSendAcks]
  split at h
  · next hdecode => rw [hdecode]
  · exact absurd h (by simp)

private theorem recvs_queue {recvs : List (List UInt32 × RecvInput)} {n : Node}
    (hqueue : ∀ b ∈ n.link.tx, isSendAcks b = false)
    (hlen : ∀ r ∈ recvs, ∀ b ∈ delivered r.2.arrival, b.length ≤ 255) :
    ∀ b ∈ (recvs.foldl (fun n r => (doClusterheadRecv r.2 (poll r.1 n)).2) n).link.tx,
      isSendAcks b = false := by
  induction recvs generalizing n with
  | nil => exact hqueue
  | cons r recvs ih =>
      refine ih (fun b hb => ?_) fun s hs => hlen s (List.mem_cons_of_mem _ hs)
      have hmoves : ∃ code, Moves (fun b => isSendAcks b = false) (fun _ => True) _ _ _ :=
        Moves.doClusterheadRecv r.2 (fun _ _ => trivial) (fun c hc hdatagram => by
          have hle := hlen r List.mem_cons_self c hc
          rw [UInt8.toNat_ofNat_of_lt' (by simp only [UInt8.size]; omega), List.take_length]
          exact isSendAcks_datagram hdatagram) (poll r.1 n)
      obtain ⟨code, hmoves⟩ := hmoves
      rcases hmoves.tx b hb with hb | hb
      · rw [(poll_state r.1 n).2] at hb
        exact hqueue b hb
      · exact hb

end Recording

section Waiting

variable {m : Node} {p : WaitPass} {passes : List WaitPass} {slotNow : UInt32}

private theorem takeClusterheadMsg_waiting (w : Bool × Node) (b : Bytes) :
    (takeClusterheadMsg w b).1 = true → w.1 = true ∧ isSendAcks b = false := by
  rw [takeClusterheadMsg, isSendAcks]
  rcases decodeMsg b with _ | ⟨⟨sequence, src, body⟩, acks⟩
  · exact fun h => ⟨h, rfl⟩
  · cases body with
    | sendAcks start stop =>
        dsimp only
        split_ifs <;> exact fun h => absurd h (by simp)
    | closeCluster nomination neighbors =>
        dsimp only
        split_ifs <;> exact fun h => absurd h (by simp)
    | _ => exact fun h => ⟨h, rfl⟩

private theorem takeFrame_done {msgs : List Bytes} {b : Bytes} (hb : b ∈ msgs)
    (hacks : isSendAcks b = true) (n : Node) : (takeFrame msgs n).1 = false := by
  have hfold (w : Bool × Node) (h : (msgs.foldl takeClusterheadMsg w).1 = true) :
      w.1 = true ∧ ∀ c ∈ msgs, isSendAcks c = false := by
    clear hb
    induction msgs generalizing w with
    | nil => exact ⟨h, fun c hc => absurd hc List.not_mem_nil⟩
    | cons d msgs ih =>
        obtain ⟨htaken, hrest⟩ := ih _ h
        obtain ⟨hw, hd⟩ := takeClusterheadMsg_waiting w d htaken
        exact ⟨hw, List.forall_mem_cons.mpr ⟨hd, hrest⟩⟩
  apply eq_false_of_ne_true
  intro h
  have hno := (hfold _ h).2 b hb
  rw [hacks] at hno
  exact absurd hno (by decide)

private theorem doFollowerRecv_first {msgs : List Bytes} (harrival : p.arrival = .accepted msgs)
    (hacks : ∃ b ∈ msgs, isSendAcks b = true)
    (hok : (doFollowerRecv slotNow (p :: passes) m).1 = some .ok) :
    (Queue.recv p.recvNow p.arrival (setCdmaCode 0 (activeSlot slotNow m).2).link).1 = .ok ∧
      (doFollowerRecv slotNow (p :: passes) m).2.state =
        (waitLoop m.state.upstreamAckSlot [p]
          (setCdmaCode 0 (activeSlot slotNow m).2)).2.state := by
  obtain ⟨b, hb, hacks⟩ := hacks
  rw [doFollowerRecv] at hok ⊢
  dsimp only at hok ⊢
  split_ifs at hok ⊢ with hnone hslot
  · exact absurd hok (by simp)
  · exact absurd hok (by simp)
  generalize setCdmaCode 0 (activeSlot slotNow m).2 = listening at *
  have hrc : (Queue.recv p.recvNow p.arrival listening.link).1 = .ok := by
    by_contra hno
    rw [waitLoop] at hok
    dsimp only at hok
    rw [if_pos hno] at hok
    split_ifs at hok <;> exact absurd hok (by simp)
  refine ⟨hrc, ?_⟩
  have hrx : (Queue.recv p.recvNow p.arrival listening.link).2.rx = msgs := by
    rw [recv_rx_of_ok hrc, harrival]
    rfl
  have hdone := takeFrame_done hb hacks { listening with
    link := (Queue.recv p.recvNow p.arrival listening.link).2 }
  have hloop (passes : List WaitPass) :
      (waitLoop m.state.upstreamAckSlot (p :: passes) listening).2 = (takeFrame msgs
        { listening with link := (Queue.recv p.recvNow p.arrival listening.link).2 }).2 := by
    rw [waitLoop]
    dsimp only
    rw [if_neg (not_not.mpr hrc), hrx, hdone]
    rfl
  rw [hloop, hloop]

end Waiting

private theorem frame_acks {inp : SendInput} {n : Node} {f : Queue.Frame}
    (hqueue : ∀ b ∈ n.link.tx, isSendAcks b = false) (hf : f ∈ (doClusterheadSend inp n).2.2)
    (rel : UInt8) : ∀ b ∈ f.msgs, ∀ a, ackFor rel b = some a → a = n.state.acks rel.toNat := by
  obtain ⟨-, msgs, hmsgs, hcase⟩ :=
    doClusterheadSend_cases (own_acks rel inp (setCdmaCode 0 (beforeEmit inp n)))
  have hframe : f.msgs = n.link.tx ++ msgs := by
    rcases hcase with ⟨-, -, -, hframes, -⟩ | ⟨-, -, -, hframes⟩
    · rw [hframes] at hf
      rw [List.mem_singleton.mp hf]
    · rw [hframes] at hf
      exact absurd hf List.not_mem_nil
  intro b hb a ha
  rw [hframe] at hb
  cases List.mem_append.mp hb with
  | inl hb =>
      rw [ackFor_none (hqueue b hb)] at ha
      exact absurd ha (by simp)
  | inr hb => exact (hmsgs b hb a ha).1

/-- Over a superframe of a clusterhead with any calls, frames and losses: the ack that a follower
takes from its frame is the sequence number of the last datagram that the clusterhead has taken in
the follower's slot, and without one the entry it had before. -/
theorem ack_is_last_heard {inp : Superframe} {n m : Node} {f : Queue.Frame} {p : WaitPass}
    {passes : List WaitPass} {slotNow : UInt32} (hqueue : ∀ b ∈ n.link.tx, isSendAcks b = false)
    (hlen : ∀ r ∈ inp.recvs, ∀ b ∈ delivered r.2.arrival, b.length ≤ 255)
    (hf : f ∈ (doClusterheadSend inp.send (beforeSend inp n)).2.2)
    (harrival : p.arrival = .accepted f.msgs)
    (hok : (doFollowerRecv slotNow (p :: passes) m).1 = some .ok) :
    let rel := m.state.upstreamRelativeSlot
    (∃ b ∈ f.msgs, covers rel b = true) →
      (doFollowerRecv slotNow (p :: passes) m).2.state.acks 0 =
        (lastSequence (heardOver rel inp.recvs n)).getD (n.state.acks rel.toNat) := by
  intro rel hcovers
  have hacks : ∃ b ∈ f.msgs, isSendAcks b = true := by
    obtain ⟨b, hb, hcovers⟩ := hcovers
    refine ⟨b, hb, eq_true_of_ne_false fun hno => ?_⟩
    rw [covers_eq, ackFor_none hno] at hcovers
    exact absurd hcovers (by simp)
  have hbefore : ∀ b ∈ (beforeSend inp n).link.tx, isSendAcks b = false := by
    rw [beforeSend, (poll_state _ _).2]
    exact recvs_queue hqueue hlen
  obtain ⟨hrc, hstate⟩ := doFollowerRecv_first harrival hacks hok
  rw [hstate, waitLoop_frame harrival hrc]
  refine (take_acks fun b hb a ha => frame_acks hbefore hf rel b hb a ha).trans ?_
  refine (if_pos hcovers).trans ?_
  rw [beforeSend, (poll_state _ _).1, recvs_acks]

def handshakeFrame : Queue.Frame :=
  let n := beforeSend forwardingRun forwardingRelay
  (doClusterheadSend forwardingRun.send n).2.2.headD ⟨0, []⟩

theorem forwarded_datagram_is_acked :
    (doFollowerRecv 113 [⟨113, .accepted handshakeFrame.msgs, 113⟩] ackedFollower).2.state.acks 0 =
      98 := by
  have hack := @ack_is_last_heard forwardingRun forwardingRelay ackedFollower handshakeFrame
    ⟨113, .accepted handshakeFrame.msgs, 113⟩ [] 113 (by decide) (by decide +kernel)
    (by decide +kernel) rfl (by decide +kernel) (by decide +kernel)
  rw [hack]
  decide +kernel

end LoraMultihop.Multihop.Handshake
