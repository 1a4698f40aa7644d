/- digest: What reaches a follower of the acks its clusterhead sends. -/

import LoraMultihop.Multihop.Relay

set_option autoImplicit false
set_option relaxedAutoImplicit false

namespace LoraMultihop.Multihop.Acks

open LoraMultihop.Foundation.ByteMemory
open LoraMultihop.Net.Params
open LoraMultihop.Link
open LoraMultihop.Link.Layer (hashCdmaCode)
open LoraMultihop.Multihop.Messages
open LoraMultihop.Multihop.State
open LoraMultihop.Multihop.Sending
open LoraMultihop.Multihop.Slots
open LoraMultihop.Multihop.Relay

/-- The ack that a message brings to relative slot `rel`, if it is a SendAcks that covers it. -/
def ackFor (rel : UInt8) (b : Bytes) : Option UInt32 :=
  match decodeMsg b with
  | some (⟨_, _, .sendAcks start stop⟩, acks) =>
      if rel < stop ∧ start ≤ rel then some (ackAt acks (rel.toNat - start.toNat)) else none
  | _ => none

def isSendAcks (b : Bytes) : Bool :=
  match decodeMsg b with
  | some (⟨_, _, .sendAcks _ _⟩, _) => true
  | _ => false

def isCloseCluster (b : Bytes) : Bool :=
  match decodeMsg b with
  | some (⟨_, _, .closeCluster _ _⟩, _) => true
  | _ => false

/-- A message of the queue is a SendAcks whose range contains relative slot `rel`. -/
def covers (rel : UInt8) (b : Bytes) : Bool :=
  match decodeMsg b with
  | some (⟨_, _, .sendAcks start stop⟩, _) => decide (start ≤ rel ∧ rel < stop)
  | _ => false

theorem covers_eq (rel : UInt8) (b : Bytes) : covers rel b = (ackFor rel b).isSome := by
  rw [covers, ackFor]
  split
  · split_ifs with hrange
    · exact decide_eq_true hrange.symm
    · exact decide_eq_false fun h => hrange h.symm
  · rfl

theorem ackFor_none {rel : UInt8} {b : Bytes} (h : isSendAcks b = false) : ackFor rel b = none := by
  rw [ackFor]
  split
  · next hdecode =>
    rw [isSendAcks, hdecode] at h
    exact absurd h (by simp)
  · rfl

theorem ackAt_ackBytes {acks : Nat → UInt32} {start count i : Nat} (h : i < count) :
    ackAt (ackBytes acks start count) i = acks (start + i) := by
  have hblock := take_drop_blocks (f := fun i => leBytes ACK_SZ (acks (start + i)).toNat)
    (k := ACK_SZ) (fun i => leBytes_length _ _) h
  rw [ackAt, ackBytes, hblock]
  change UInt32.ofNat (leNat (leBytes 4 _)) = _
  rw [leNat_leBytes_of_lt (UInt32.toNat_lt _), UInt32.ofNat_toNat]

theorem ackFor_acksMessage (s : MultihopState) (stamp : UInt32) {start : UInt8} {count : Nat}
    (hcount : start.toNat + count ≤ 255) (rel : UInt8) :
    ackFor rel (acksMessage s stamp start count) =
      if start.toNat ≤ rel.toNat ∧ rel.toNat < start.toNat + count then some (s.acks rel.toNat)
      else none := by
  have hstop := ackEnd_toNat hcount
  by_cases hpos : 0 < count
  · rw [ackFor, acksMessage, decodeMsg_toBytes (acks_fit s.acks hpos hcount)]
    simp only [UInt8.lt_iff_toNat_lt, UInt8.le_iff_toNat_le, hstop]
    by_cases hrange : start.toNat ≤ rel.toNat ∧ rel.toNat < start.toNat + count
    · rw [if_pos hrange, if_pos hrange.symm, ackAt_ackBytes (by omega),
        Nat.add_sub_cancel' hrange.1]
    · rw [if_neg hrange, if_neg (fun h => hrange h.symm)]
  · have hnone : ackFor rel (acksMessage s stamp start count) = none := by
      rw [ackFor, acksMessage]
      split
      · next sequence src start' stop acks hdecode =>
        have heq := eq_of_decodeMsg hdecode
        simp only [Prod.mk.injEq, Message.mk.injEq, Body.sendAcks.injEq] at heq
        obtain ⟨⟨-, -, rfl, rfl⟩, -⟩ := heq
        simp only [UInt8.lt_iff_toNat_lt, UInt8.le_iff_toNat_le, hstop]
        exact if_neg (by omega)
      · rfl
    rw [hnone, if_neg (by omega)]

private theorem take_ack (w : Bool × Node) (b : Bytes) :
    let s := w.2.state
    (takeClusterheadMsg w b).2.state.acks 0 = (ackFor s.upstreamRelativeSlot b).getD (s.acks 0) ∧
      (takeClusterheadMsg w b).2.state.upstreamRelativeSlot = s.upstreamRelativeSlot := by
  intro s
  rw [takeClusterheadMsg]
  split
  · next hdecode =>
    rw [ackFor, hdecode]
    dsimp only
    split_ifs <;> exact ⟨rfl, rfl⟩
  · next hdecode =>
    rw [ackFor, hdecode]
    dsimp only
    split_ifs <;> exact ⟨rfl, rfl⟩
  · next hacks hclose =>
    refine ⟨?_, rfl⟩
    rw [ackFor]
    split
    · next hdecode => exact absurd hdecode (hacks _ _ _ _ _)
    · rfl

theorem take_acks {w : Bool × Node} {msgs : List Bytes} {ack : UInt32}
    (h : ∀ b ∈ msgs, ∀ a, ackFor w.2.state.upstreamRelativeSlot b = some a → a = ack) :
    (msgs.foldl takeClusterheadMsg w).2.state.acks 0 =
      if ∃ b ∈ msgs, covers w.2.state.upstreamRelativeSlot b = true then ack
      else w.2.state.acks 0 := by
  induction msgs generalizing w with
  | nil => simp
  | cons b msgs ih =>
      obtain ⟨hacks, hrel⟩ := take_ack w b
      have hrest := ih (w := takeClusterheadMsg w b) (by
        rw [hrel]
        exact fun c hc => h c (List.mem_cons_of_mem b hc))
      rw [List.foldl_cons, hrest, hrel, hacks]
      by_cases hsome : ∃ c ∈ msgs, covers w.2.state.upstreamRelativeSlot c = true
      · rw [if_pos hsome, if_pos (hsome.imp fun c hc => ⟨List.mem_cons_of_mem b hc.1, hc.2⟩)]
      · rw [if_neg hsome]
        cases hb : ackFor w.2.state.upstreamRelativeSlot b with
        | none =>
            rw [Option.getD_none, if_neg]
            rintro ⟨c, hc, hc'⟩
            cases List.mem_cons.mp hc with
            | inl hcb =>
                rw [hcb, covers_eq, hb] at hc'
                exact absurd hc' (by simp)
            | inr hc => exact hsome ⟨c, hc, hc'⟩
        | some a =>
            rw [Option.getD_some, if_pos ⟨b, List.mem_cons_self, by rw [covers_eq, hb]; rfl⟩]
            exact h b List.mem_cons_self a hb

theorem acksMessage_close (s : MultihopState) (stamp : UInt32) (start : UInt8) (count : Nat) :
    isCloseCluster (acksMessage s stamp start count) = false := by
  rw [isCloseCluster, acksMessage]
  split
  · next hdecode =>
    have htype := congrArg (fun r => r.1.body.type) (eq_of_decodeMsg hdecode)
    exact absurd htype (by simp [Body.type])
  · rfl

theorem closeMessage_decodes (s : MultihopState) (stamp : UInt32) (renominate : Bool) :
    isCloseCluster (closeMessage s stamp renominate) = true ∧
      isSendAcks (closeMessage s stamp renominate) = false := by
  have hdecode := @decodeMsg_toBytes ⟨stamp, s.address,
    .closeCluster (if renominate then s.address else UNKNOWN_ADDR) s.neighbors⟩ [] rfl
  rw [List.append_nil] at hdecode
  rw [isCloseCluster, isSendAcks, closeMessage, hdecode]
  exact ⟨rfl, rfl⟩

theorem own_acks (rel : UInt8) (inp : SendInput) (n : Node) :
    Extends (fun b => ∀ a, ackFor rel b = some a →
        a = n.state.acks rel.toNat ∧ rel.toNat < n.state.slotCount) n
      (Slots.queueChMessages inp n) := by
  apply Extends.queueChMessages inp
  · intro stamp start count hcount hslots a ha
    rw [ackFor_acksMessage n.state stamp hcount] at ha
    split_ifs at ha with hrange
    exact ⟨(Option.some.inj ha).symm, lt_of_lt_of_le hrange.2 (hslots (by omega))⟩
  · intro stamp renominate a ha
    rw [ackFor_none (closeMessage_decodes _ _ _).2] at ha
    exact absurd ha (by simp)

private theorem recv_accepted {now : UInt32} {msgs : List Bytes} {s : Queue.State}
    (h : (Queue.recv now (.accepted msgs) s).1 = .ok) :
    (Queue.recv now (.accepted msgs) s).2.rx = msgs := by
  rcases Queue.recv_cases now (.accepted msgs) s with ⟨hno, -⟩ | ⟨-, w, hs⟩
  · exact absurd h hno
  · rw [hs]

theorem waitLoop_frame {chSlot : UInt8} {p : WaitPass} {m : Node} {msgs : List Bytes}
    (harrival : p.arrival = .accepted msgs)
    (hrecv : (Queue.recv p.recvNow p.arrival m.link).1 = .ok) :
    (waitLoop chSlot [p] m).2.state =
      (msgs.foldl takeClusterheadMsg
        (true, { m with link := { (Queue.recv p.recvNow p.arrival m.link).2 with rx := [] } })
        ).2.state := by
  have hrx : (Queue.recv p.recvNow p.arrival m.link).2.rx = msgs := by
    rw [harrival] at hrecv ⊢
    exact recv_accepted hrecv
  rw [waitLoop]
  dsimp only
  rw [if_neg (not_not.mpr hrecv), takeFrame, hrx]
  split_ifs <;> rfl

/-- A follower that receives the frame of its clusterhead takes the ack of its own slot, if the acks
in the frame cover it, and nothing else. -/
theorem follower_takes_own_ack {inp : SendInput} {n : Node} {f : Queue.Frame}
    (hqueue : ∀ b ∈ n.link.tx, isSendAcks b = false) (hf : f ∈ (doClusterheadSend inp n).2.2)
    {chSlot : UInt8} {p : WaitPass} {m : Node} (harrival : p.arrival = .accepted f.msgs)
    (hrecv : (Queue.recv p.recvNow p.arrival m.link).1 = .ok) :
    let rel := m.state.upstreamRelativeSlot
    ((waitLoop chSlot [p] m).2.state.acks 0 =
      if ∃ b ∈ f.msgs, covers rel b = true then n.state.acks rel.toNat else m.state.acks 0) ∧
      ((∃ b ∈ f.msgs, covers rel b = true) → rel.toNat < n.state.slotCount) := by
  intro rel
  obtain ⟨-, msgs, hmsgs, hcase⟩ :=
    doClusterheadSend_cases (own_acks rel inp (setCdmaCode 0 (beforeEmit inp n)))
  have hframe : f.msgs = n.link.tx ++ msgs := by
    rcases hcase with ⟨-, -, -, hframes, -⟩ | ⟨-, -, -, hframes⟩
    · rw [hframes] at hf
      rw [List.mem_singleton.mp hf]
    · rw [hframes] at hf
      exact absurd hf List.not_mem_nil
  have hown : ∀ b ∈ f.msgs, ∀ a, ackFor rel b = some a →
      a = n.state.acks rel.toNat ∧ rel.toNat < n.state.slotCount := by
    intro b hb a ha
    rw [hframe] at hb
    cases List.mem_append.mp hb with
    | inl hb =>
        rw [ackFor_none (hqueue b hb)] at ha
        exact absurd ha (by simp)
    | inr hb => exact hmsgs b hb a ha
  refine ⟨?_, ?_⟩
  · rw [waitLoop_frame harrival hrecv]
    exact take_acks fun b hb a ha => (hown b hb a ha).1
  · rintro ⟨b, hb, hcovers⟩
    rw [covers_eq] at hcovers
    obtain ⟨a, ha⟩ := Option.isSome_iff_exists.mp hcovers
    exact (hown b hb a ha).2

/-- The relay after a datagram of its follower, and that follower in the slot of the acks. -/
def ackingRelay : Node :=
  { forwardingRelay with
    state := { forwardingRelay.state with acks := fun i => if i = 1 then 98 else 0 } }

def ackedFollower : Node :=
  { forwardingRelay with
    state :=
      { forwardingRelay.state with
        address := 9
        ring := 2
        role := .follower
        clusterheadRing := 1
        clusterheadAddr := 5
        upstreamStartSlot := 8
        upstreamAckSlot := 14 } }

def relayFrame : Queue.Frame :=
  (doClusterheadSend forwardingRun.send ackingRelay).2.2.headD ⟨0, []⟩

theorem ackedFollower_takes_own_ack :
    (waitLoop 14 [⟨113, .accepted relayFrame.msgs, 113⟩] ackedFollower).2.state.acks 0 = 98 := by
  have hack := (@follower_takes_own_ack forwardingRun.send ackingRelay relayFrame (by decide)
    (by decide +kernel) 14 ⟨113, .accepted relayFrame.msgs, 113⟩ ackedFollower rfl
    (by decide +kernel)).1
  rw [hack, if_pos (by decide +kernel)]
  rfl

end LoraMultihop.Multihop.Acks
