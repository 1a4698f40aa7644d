/- digest: The protocol as one machine, and where the datagrams and acks of a network come from. -/

import LoraMultihop.Foundation.Provenance
import LoraMultihop.Multihop.Acks
import LoraMultihop.Multihop.Traffic

set_option autoImplicit false
set_option relaxedAutoImplicit false

namespace LoraMultihop.Multihop.Network

open LoraMultihop.Foundation.ByteMemory (Bytes)
open LoraMultihop.Foundation.Soup
open LoraMultihop.Foundation.Provenance
open LoraMultihop.Net.Params
open LoraMultihop.Link
open LoraMultihop.Multihop.Messages
open LoraMultihop.Multihop.State
open LoraMultihop.Multihop.Sending
open LoraMultihop.Multihop.Slots
open LoraMultihop.Multihop.Discovery
open LoraMultihop.Multihop.Advertise
open LoraMultihop.Multihop.Api (Op)
open LoraMultihop.Multihop.Relay (isDatagram isDatagram_toBytes forwardingRelay forwardingRun)
open LoraMultihop.Multihop.Traffic

/-- What a node of the network does next: one step of `do_advertise`, the first step of the next
one, or any other call of the layer. -/
inductive Action
  | advertise (inp : Input)
  | again
  | call (op : Op)

def Action.exec : Action → Proc → Proc × List Bytes
  | .advertise inp, p => ((step inp p).1, (step inp p).2.flatMap Queue.Frame.msgs)
  | .again, p => (⟨.idle, p.node⟩, [])
  | .call op, p =>
      ({ p with node := op.exec p.node }, (sends op p.node).flatMap Queue.Frame.msgs)

def Action.heard : Action → List Bytes
  | .advertise inp => inp.heard
  | .again => []
  | .call op => hears op

/-- `do_advertise` is taken step by step, and a message that `getmsg` returns has one byte for its
length. -/
def Action.Enabled : Action → Proc → Prop
  | .advertise _, _ => True
  | .again, p => p.control.isDone = true
  | .call op, _ => isAdvertise op = false ∧ ∀ b ∈ hears op, b.length ≤ 255

instance (a : Action) (p : Proc) : Decidable (a.Enabled p) :=
  match a with
  | .advertise _ => isTrue trivial
  | .again => inferInstanceAs (Decidable (p.control.isDone = true))
  | .call op =>
      inferInstanceAs (Decidable (isAdvertise op = false ∧ ∀ b ∈ hears op, b.length ≤ 255))

/-- A node of the network; any message of any node may reach it. -/
def machine : Machine Proc Action Bytes where
  step := Action.exec
  heard := Action.heard
  enabled := Action.Enabled

def Adds (n : Node) : Action → Bytes → Prop
  | .advertise inp, b => Own inp n b
  | .again, _ => False
  | .call op, b => Makes n op b

/-- The messages a node holds, in its queue or still to be read. -/
def Holds (n : Node) (b : Bytes) : Prop := b ∈ n.link.tx ∨ b ∈ n.link.rx

theorem moves_holds {new heard : Bytes → Prop} {n n' : Node} {fs : List Queue.Frame} {code : UInt8}
    (h : Moves new heard { n with link := { n.link with code := code } } n' fs) {b : Bytes}
    (hb : Holds n' b ∨ b ∈ fs.flatMap Queue.Frame.msgs) : Holds n b ∨ new b ∨ heard b := by
  have htx (hb : b ∈ n.link.tx ∨ new b) : Holds n b ∨ new b ∨ heard b :=
    hb.elim (fun hb => Or.inl (Or.inl hb)) fun hb => Or.inr (Or.inl hb)
  rcases hb with (hb | hb) | hb
  · exact htx (h.tx b hb)
  · exact (h.rx b hb).elim (fun hb => Or.inl (Or.inr hb)) fun hb => Or.inr (Or.inr hb)
  · obtain ⟨f, hf, hbf⟩ := List.mem_flatMap.mp hb
    exact htx ((h.sent f hf).2 b hbf)

theorem exec_holds {a : Action} {p : Proc} (ha : a.Enabled p) {b : Bytes}
    (hb : Holds (a.exec p).1.node b ∨ b ∈ (a.exec p).2) :
    Holds p.node b ∨ Adds p.node a b ∨ b ∈ a.heard := by
  cases a with
  | advertise inp =>
      obtain ⟨control, n⟩ := p
      by_cases hidle : control = .idle
      · subst hidle
        obtain ⟨code, hmoves⟩ := Moves.start inp (· ∈ inp.heard) n
        exact moves_holds hmoves hb
      · exact moves_holds (Moves.step hidle fun _ hb => hb) hb
  | again =>
      rcases hb with hb | hb
      · exact Or.inl hb
      · exact absurd hb List.not_mem_nil
  | call op =>
      obtain ⟨code, hmoves⟩ := Moves.exec ha.1 p.node
      exact moves_holds hmoves hb

section Datagrams

private theorem isDatagram_own {inp : Input} {n : Node} {b : Bytes} (h : Own inp n b) :
    isDatagram b = false := by
  obtain ⟨stamp, body, hsaid, rfl⟩ := h
  rw [← List.append_nil (Message.toBytes _)]
  apply isDatagram_toBytes
  cases body <;> simp_all [Said, Body.type]

/-- Whole datagrams, followed from the `send_datagram` that queued them. -/
def datagrams : Tracing Proc Action Bytes Bytes where
  holds p b := isDatagram b = true ∧ Holds p.node b
  carries m b := isDatagram b = true ∧ m = b
  brings a p b := ∃ stamp iter datagram fragment iter', a = .call (.sendDatagram stamp iter) ∧
    iter.next = some (datagram, fragment, iter') ∧ (sendDatagram stamp iter p.node).1 = .ok ∧
      b = Message.toBytes ⟨stamp, p.node.state.address, datagram⟩ ++ fragment

private theorem datagrams_source {a : Action} {p : Proc} (ha : a.Enabled p) {b : Bytes}
    (hdatagram : isDatagram b = true) (h : Holds p.node b ∨ Adds p.node a b ∨ b ∈ a.heard) :
    datagrams.Source machine a p b := by
  rcases h with hold | hnew | hheard
  · exact Or.inl ⟨hdatagram, hold⟩
  · cases a with
    | advertise inp => exact absurd (hdatagram.symm.trans (isDatagram_own hnew)) (by simp)
    | again => exact hnew.elim
    | call op =>
        cases hnew with
        | own op stamp body hasks =>
            rw [← List.append_nil (Message.toBytes _), isDatagram_toBytes [] (asks_type hasks).1]
              at hdatagram
            exact absurd hdatagram (by simp)
        | acks op stamp start count hcount =>
            rw [acksMessage, isDatagram_toBytes _ (by simp [Body.type])] at hdatagram
            exact absurd hdatagram (by simp)
        | datagram stamp iter datagram fragment iter' hnext hok =>
            exact Or.inr (Or.inr ⟨stamp, iter, datagram, fragment, iter', rfl, hnext, hok, rfl⟩)
        | forward inp m hm hmdatagram =>
            have hlen : (UInt8.ofNat m.length).toNat = m.length := by
              rw [UInt8.toNat_ofNat']
              exact Nat.mod_eq_of_lt (Nat.lt_succ_of_le (ha.2 m hm))
            rw [hlen, List.take_length] at hdatagram ⊢
            exact Or.inr (Or.inl ⟨m, hm, hdatagram, rfl⟩)
  · exact Or.inr (Or.inl ⟨b, hheard, hdatagram, rfl⟩)

theorem datagrams_conserved : datagrams.Conserved machine where
  held a p b ha h := datagrams_source ha h.1 (exec_holds ha (Or.inl h.2))
  said a p m b ha hm h := by
    obtain ⟨hdatagram, rfl⟩ := h
    exact datagrams_source ha hdatagram (exec_holds ha (Or.inr hm))

end Datagrams

section Acks

/-- The sequence numbers a message names: that of a datagram, or the entries of a SendAcks. -/
def sequences (b : Bytes) : List UInt32 :=
  match decodeMsg b with
  | some (⟨sequence, _, .datagram _ _ _⟩, _) => [sequence]
  | some (⟨_, _, .sendAcks start stop⟩, acks) =>
      (List.range (stop.toNat - start.toNat)).map (ackAt acks)
  | _ => []

def Recorded (s : MultihopState) (v : UInt32) : Prop := ∃ i, s.acks i = v

/-- An entry of `acks` other than zero was there before, or a message heard names it. -/
def AcksFrom (heard : Bytes → Prop) (s s' : MultihopState) : Prop :=
  ∀ v, v ≠ 0 → Recorded s' v → Recorded s v ∨ ∃ b, heard b ∧ v ∈ sequences b

variable {heard : Bytes → Prop} {s s' s'' : MultihopState} {n : Node} {inp : Input}

private theorem AcksFrom.of_eq (h : s'.acks = s.acks) : AcksFrom heard s s' := by
  intro v _ hv
  rw [Recorded, h] at hv
  exact Or.inl hv

private theorem AcksFrom.of_state (h : s' = s) : AcksFrom heard s s' := AcksFrom.of_eq (by rw [h])

private theorem AcksFrom.trans (h : AcksFrom heard s s') (h' : AcksFrom heard s' s'') :
    AcksFrom heard s s'' := by
  intro v hv hrec
  exact (h' v hv hrec).elim (h v hv) Or.inr

private theorem AcksFrom.cleared {p : Nat → Prop} [DecidablePred p]
    (h : s'.acks = fun i => if p i then 0 else s.acks i) : AcksFrom heard s s' := by
  intro v hv hrec
  obtain ⟨i, hi⟩ := hrec
  rw [h] at hi
  dsimp only at hi
  split_ifs at hi
  · exact absurd hi.symm hv
  · exact Or.inl ⟨i, hi⟩

private theorem AcksFrom.startRound (round : Nat) (earlier : Bool) (n : Node) :
    AcksFrom heard n.state (startRound inp round earlier n).node.state := by
  rw [Advertise.startRound, startAnnouncement]
  dsimp only
  split_ifs
  · exact AcksFrom.cleared rfl
  · exact AcksFrom.cleared rfl
  · exact AcksFrom.of_eq rfl

private theorem AcksFrom.joinMessage (round : Nat) (isClusterhead : Bool) (l : JoinLocals)
    (n : Node) : AcksFrom heard n.state (joinMessage inp round isClusterhead l n).1.node.state := by
  have hanswer (m : Message) (n : Node) :
      AcksFrom heard n.state (answerFollow inp isClusterhead m n).1.state := by
    rcases answerFollow_state inp isClusterhead m n with hs | ⟨-, hs⟩
    · exact AcksFrom.of_state hs
    · obtain ⟨table, count, hkept⟩ := assign_kept m.src n
      rw [hs, hkept]
      exact AcksFrom.of_eq rfl
  have hjoin (m : Message) (n : Node) (durationMs : UInt32) :
      AcksFrom heard n.state (join inp l m n durationMs).2.2.state := by
    rcases join_cases inp l m n durationMs with h | ⟨-, h⟩ |
      ⟨accepted, start, relative, remote, -, -, -, -, -, h⟩
    · rw [h]
      exact AcksFrom.of_eq rfl
    · rw [h]
      exact AcksFrom.of_eq rfl
    · rw [h]
      rcases promote_cases (inp.rand 0) (attach l start relative n) with hp | ⟨-, -, hp⟩
      · rw [hp]
        exact AcksFrom.of_eq rfl
      · rw [hp]
        exact AcksFrom.cleared rfl
  rw [Advertise.joinMessage]
  dsimp only
  split
  · exact AcksFrom.of_eq rfl
  · next m _ _ => exact (hanswer m { n with link := (Queue.getmsg n.link).2 }).trans (hjoin m _ _)

/-- No step of `do_advertise` does more to the acks than to clear some. -/
private theorem AcksFrom.step (inp : Input) (p : Proc) :
    AcksFrom heard p.node.state (step inp p).1.node.state := by
  obtain ⟨control, n⟩ := p
  cases control with
  | idle =>
      rw [Advertise.step]
      dsimp only
      split_ifs
      · exact AcksFrom.of_eq rfl
      · exact AcksFrom.cleared rfl
  | discovery l =>
      rw [Advertise.step]
      dsimp only
      split_ifs
      · exact AcksFrom.startRound _ _ _
      · obtain ⟨neighbors, ring, rounds, hkept⟩ := heardState_kept inp n
        have hstate := (discoveryPass_state inp l n).trans hkept
        exact AcksFrom.of_eq (by rw [hstate])
  | announcement round earlier l =>
      rw [Advertise.step]
      dsimp only
      split_ifs
      · exact AcksFrom.of_eq rfl
      · exact AcksFrom.of_state (announcementPass_state inp l n)
  | joining stage round isClusterhead l =>
      cases stage with
      | head =>
          rw [Advertise.step]
          dsimp only
          split_ifs
          · exact AcksFrom.startRound _ _ _
          · exact AcksFrom.of_eq rfl
          · exact AcksFrom.of_state (joinHead_state inp l n)
      | recv => exact AcksFrom.of_eq rfl
      | drain => exact AcksFrom.joinMessage _ _ _ _
  | done => exact AcksFrom.of_eq rfl

private theorem AcksFrom.takeClusterheadMsg {w : Bool × Node} {buf : Bytes} (h : heard buf) :
    AcksFrom heard w.2.state (takeClusterheadMsg w buf).2.state := by
  rw [Slots.takeClusterheadMsg]
  dsimp only
  split
  · next _ _ start stop acks hdec =>
    split_ifs with hin
    · intro v hv hrec
      obtain ⟨i, hi⟩ := hrec
      dsimp only at hi
      split_ifs at hi
      · refine Or.inr ⟨buf, h, ?_⟩
        rw [sequences, hdec]
        refine List.mem_map.mpr ⟨_, List.mem_range.mpr ?_, hi⟩
        have hlt := UInt8.lt_iff_toNat_lt.mp hin.1
        have hle := UInt8.le_iff_toNat_le.mp hin.2
        omega
      · exact Or.inl ⟨i, hi⟩
    · exact AcksFrom.of_eq rfl
  · split_ifs <;> exact AcksFrom.of_eq rfl
  · exact AcksFrom.of_eq rfl

private theorem AcksFrom.takeFrame {msgs : List Bytes} (h : ∀ b ∈ msgs, heard b) (n : Node) :
    AcksFrom heard n.state (takeFrame msgs n).2.state := by
  have hfold (w : Bool × Node) :
      AcksFrom heard w.2.state (msgs.foldl Slots.takeClusterheadMsg w).2.state := by
    induction msgs generalizing w with
    | nil => exact AcksFrom.of_eq rfl
    | cons b msgs ih =>
        exact (AcksFrom.takeClusterheadMsg (h b List.mem_cons_self)).trans
          (ih (fun c hc => h c (List.mem_cons_of_mem _ hc)) _)
  exact hfold _

theorem recv_rx_of_ok {now : UInt32} {arrival : Queue.Arrival} {link : Queue.State}
    (h : (Queue.recv now arrival link).1 = .ok) :
    (Queue.recv now arrival link).2.rx = delivered arrival := by
  rcases Queue.recv_cases now arrival link with ⟨hno, -⟩ | ⟨-, w, hs⟩
  · exact absurd h hno
  · rw [hs]
    cases arrival <;> rfl

private theorem AcksFrom.waitLoop (chSlot : UInt8) {passes : List WaitPass}
    (h : ∀ p ∈ passes, ∀ b ∈ delivered p.arrival, heard b) (n : Node) :
    AcksFrom heard n.state (waitLoop chSlot passes n).2.state := by
  induction passes generalizing n with
  | nil => exact AcksFrom.of_eq rfl
  | cons p passes ih =>
      have hframe (hok : (Queue.recv p.recvNow p.arrival n.link).1 = .ok) :
          AcksFrom heard n.state (Slots.takeFrame (Queue.recv p.recvNow p.arrival n.link).2.rx
            { n with link := (Queue.recv p.recvNow p.arrival n.link).2 }).2.state := by
        rw [recv_rx_of_ok hok]
        exact AcksFrom.takeFrame (h p List.mem_cons_self)
          { n with link := (Queue.recv p.recvNow p.arrival n.link).2 }
      rw [Slots.waitLoop]
      dsimp only
      split_ifs with hrc hto hwait hslot
      · exact AcksFrom.of_eq rfl
      · exact AcksFrom.of_eq rfl
      · exact (hframe (not_not.mp hrc)).trans
          (ih (fun q hq => h q (List.mem_cons_of_mem _ hq)) (activeSlot p.slotNow _).2)
      · exact hframe (not_not.mp hrc)
      · exact hframe (not_not.mp hrc)

private theorem AcksFrom.takeDatagrams (relative : UInt8) {msgs : List Bytes}
    (h : ∀ b ∈ msgs, heard b)
    (n : Node) : AcksFrom heard n.state (msgs.foldl (takeDatagram relative) n).state := by
  induction msgs generalizing n with
  | nil => exact AcksFrom.of_eq rfl
  | cons b msgs ih =>
      have htake : AcksFrom heard n.state (takeDatagram relative n b).state := by
        rw [takeDatagram]
        split
        · next sequence _ _ _ _ _ hdec =>
          intro v hv hrec
          obtain ⟨i, hi⟩ := hrec
          dsimp only at hi
          split_ifs at hi
          · refine Or.inr ⟨b, h b List.mem_cons_self, ?_⟩
            rw [sequences, hdec]
            exact List.mem_singleton.mpr hi.symm
          · exact Or.inl ⟨i, hi⟩
        · exact AcksFrom.of_eq rfl
      exact htake.trans (ih (fun c hc => h c (List.mem_cons_of_mem _ hc)) _)

private theorem AcksFrom.doClusterheadRecv (inp : RecvInput)
    (h : ∀ b ∈ delivered inp.arrival, heard b)
    (n : Node) : AcksFrom heard n.state (doClusterheadRecv inp n).2.state := by
  rw [Slots.doClusterheadRecv]
  dsimp only
  split
  · exact AcksFrom.of_eq rfl
  · next relative _ =>
    split_ifs with hrc
    · exact AcksFrom.of_eq rfl
    · exact AcksFrom.of_eq rfl
    · rw [recv_rx_of_ok (not_not.mp hrc)]
      exact AcksFrom.takeDatagrams relative h ⟨n.state, _⟩

private theorem AcksFrom.exec {op : Op} (hop : isAdvertise op = false) (n : Node) :
    AcksFrom (· ∈ hears op) n.state (op.exec n).state := by
  cases op with
  | doAdvertise inps => exact absurd hop (by simp [isAdvertise])
  | setClusterheadProbability p => exact AcksFrom.of_eq rfl
  | accept follower remote stamp =>
      rw [Op.exec]
      by_cases hi : n.state.initialized = true
      · rw [accept_snd remote stamp hi, send_state]
        obtain ⟨table, count, hkept⟩ := assign_kept follower n
        exact AcksFrom.of_eq (by rw [hkept])
      · rw [accept, if_pos (by simpa using hi)]
        exact AcksFrom.of_eq rfl
  | doFollowerRecv slotNow passes =>
      rw [Op.exec, doFollowerRecv]
      dsimp only
      split_ifs
      · exact AcksFrom.of_eq rfl
      · exact AcksFrom.of_eq rfl
      · refine AcksFrom.trans (AcksFrom.of_eq rfl) (AcksFrom.waitLoop _ ?_ _)
        intro p hp b hb
        exact List.mem_flatMap.mpr ⟨p, hp, hb⟩
  | doClusterheadRecv inp => exact AcksFrom.doClusterheadRecv inp (fun _ hb => hb) n
  | _ => exact AcksFrom.of_state (Api.exec_state rfl n)

private theorem sequences_acksMessage {s : MultihopState} {stamp : UInt32} {start : UInt8}
    {count : Nat} (hcount : start.toNat + count ≤ 255) {v : UInt32}
    (hv : v ∈ sequences (acksMessage s stamp start count)) : Recorded s v := by
  have hstop : (UInt8.ofNat (start.toNat + count)).toNat = start.toNat + count :=
    ackEnd_toNat hcount
  rw [sequences, acksMessage] at hv
  split at hv
  · next hdec => exact absurd (eq_of_decodeMsg hdec) (by simp)
  · next hdec =>
    have heq := eq_of_decodeMsg hdec
    simp only [Prod.mk.injEq, Message.mk.injEq, Body.sendAcks.injEq] at heq
    obtain ⟨⟨-, -, rfl, rfl⟩, rfl⟩ := heq
    obtain ⟨i, hi, hat⟩ := List.mem_map.mp hv
    rw [List.mem_range, hstop, Nat.add_sub_cancel_left] at hi
    rw [Acks.ackAt_ackBytes hi] at hat
    exact ⟨_, hat⟩
  · exact absurd hv List.not_mem_nil

private theorem sequences_own {m : Message} (hdatagram : m.body.type ≠ .datagram)
    (hacks : m.body.type ≠ .sendAcks) : sequences m.toBytes = [] := by
  rw [sequences]
  split
  · next hdec =>
    rw [← List.append_nil m.toBytes] at hdec
    have heq := congrArg (fun r => r.1.body.type) (eq_of_decodeMsg hdec)
    exact absurd heq.symm hdatagram
  · next hdec =>
    rw [← List.append_nil m.toBytes] at hdec
    have heq := congrArg (fun r => r.1.body.type) (eq_of_decodeMsg hdec)
    exact absurd heq.symm hacks
  · rfl

/-- Sequence numbers, followed from the datagram that was stamped with them. -/
def acks : Tracing Proc Action Bytes UInt32 where
  holds p v := v ≠ 0 ∧ (Recorded p.node.state v ∨ ∃ b, Holds p.node b ∧ v ∈ sequences b)
  carries m v := v ≠ 0 ∧ v ∈ sequences m
  brings a p v := ∃ iter, a = .call (.sendDatagram v iter) ∧
    (sendDatagram v iter p.node).1 = .ok

private theorem acks_source {a : Action} {p : Proc} (ha : a.Enabled p) {b : Bytes} {v : UInt32}
    (hv : v ≠ 0) (hb : v ∈ sequences b) (h : Holds p.node b ∨ Adds p.node a b ∨ b ∈ a.heard) :
    acks.Source machine a p v := by
  rcases h with hold | hnew | hheard
  · exact Or.inl ⟨hv, Or.inr ⟨b, hold, hb⟩⟩
  · cases a with
    | advertise inp =>
        obtain ⟨stamp, body, hsaid, rfl⟩ := hnew
        rw [sequences_own (by cases body <;> simp_all [Said, Body.type])
          (by cases body <;> simp_all [Said, Body.type])] at hb
        exact absurd hb List.not_mem_nil
    | again => exact hnew.elim
    | call op =>
        cases hnew with
        | own op stamp body hasks =>
            obtain ⟨hdatagram, hacks⟩ := asks_type hasks
            rw [sequences_own hdatagram hacks] at hb
            exact absurd hb List.not_mem_nil
        | acks op stamp start count hcount =>
            exact Or.inl ⟨hv, Or.inl (sequences_acksMessage hcount hb)⟩
        | datagram stamp iter datagram fragment iter' hnext hok =>
            rw [sequences] at hb
            split at hb
            · next hdec =>
              have hstamp := congrArg (fun r => r.1.sequence) (eq_of_decodeMsg hdec)
              rw [List.mem_singleton] at hb
              obtain rfl : v = stamp := hb.trans hstamp
              exact Or.inr (Or.inr ⟨iter, rfl, hok⟩)
            · next hdec =>
              have hbody := congrArg (fun r => r.1.body.type) (eq_of_decodeMsg hdec)
              exact absurd (hbody.trans (next_type hnext)) (by simp [Body.type])
            · exact absurd hb List.not_mem_nil
        | forward inp m hm hmdatagram =>
            have hlen : (UInt8.ofNat m.length).toNat = m.length := by
              rw [UInt8.toNat_ofNat']
              exact Nat.mod_eq_of_lt (Nat.lt_succ_of_le (ha.2 m hm))
            rw [hlen, List.take_length] at hb
            exact Or.inr (Or.inl ⟨m, hm, hv, hb⟩)
  · exact Or.inr (Or.inl ⟨b, hheard, hv, hb⟩)

theorem acks_conserved : acks.Conserved machine where
  held a p v ha h := by
    obtain ⟨hv, hrec | ⟨b, hb, hseq⟩⟩ := h
    · have hfrom : AcksFrom (· ∈ a.heard) p.node.state (a.exec p).1.node.state := by
        cases a with
        | advertise inp => exact AcksFrom.step inp p
        | again => exact AcksFrom.of_eq rfl
        | call op => exact AcksFrom.exec ha.1 p.node
      rcases hfrom v hv hrec with hold | ⟨b, hheard, hseq⟩
      · exact Or.inl ⟨hv, Or.inl hold⟩
      · exact Or.inr (Or.inl ⟨b, hheard, hv, hseq⟩)
    · exact acks_source ha hv hseq (exec_holds ha (Or.inl hb))
  said a p m v ha hm h := acks_source ha h.1 h.2 (exec_holds ha (Or.inr hm))

end Acks

structure Silent {ι : Type*} (c : Network ι Proc Bytes) : Prop where
  held : ∀ i b, ¬ Holds (c.procs i).node b
  air : c.air = []

def Unacked {ι : Type*} (c : Network ι Proc Bytes) : Prop :=
  ∀ i j, (c.procs i).node.state.acks j = 0

section Runs

variable {ι : Type*} [DecidableEq ι] {Linked : ι → ι → Prop} {c : Network ι Proc Bytes}
  {steps : List (ι × Action)}

/-- Somewhere in the run `send_datagram` succeeds with this stamp on this iterator. -/
def SentDatagram (steps : List (ι × Action)) (c : Network ι Proc Bytes) (i : ι) (n : Node)
    (stamp : UInt32) (iter : DatagramIterator) : Prop :=
  ∃ before after, steps = before ++ (i, .call (.sendDatagram stamp iter)) :: after ∧
    n = ((c.run machine before).procs i).node ∧ (sendDatagram stamp iter n).1 = .ok

/-- However the nodes interleave and whatever is lost, repeated or late: a datagram that a node has
queued or received or that is on the air is, byte for byte, one that a `send_datagram` of the run
has queued, under the address of the node that called it. -/
theorem datagram_was_sent (hsilent : Silent c) (hallowed : Allowed machine Linked steps c)
    {b : Bytes} (hdatagram : isDatagram b = true)
    (hpresent : (∃ i, Holds ((c.run machine steps).procs i).node b) ∨
      ∃ p ∈ (c.run machine steps).air, p.2 = b) :
    ∃ i n stamp iter datagram fragment iter', SentDatagram steps c i n stamp iter ∧
      iter.next = some (datagram, fragment, iter') ∧
        b = Message.toBytes ⟨stamp, n.state.address, datagram⟩ ++ fragment := by
  have hend : datagrams.Present (c.run machine steps) b := by
    rcases hpresent with ⟨i, hi⟩ | ⟨p, hp, hpb⟩
    · exact Or.inl ⟨i, hdatagram, hi⟩
    · exact Or.inr ⟨p, hp, hdatagram, hpb⟩
  rcases datagrams_conserved.run hallowed hend with (⟨i, -, hi⟩ | ⟨p, hp, -⟩) | hbrought
  · exact absurd hi (hsilent.held i b)
  · rw [hsilent.air] at hp
    exact absurd hp List.not_mem_nil
  · obtain ⟨before, i, a, after, heq, hbrings⟩ := hbrought
    obtain ⟨stamp, iter, datagram, fragment, iter', rfl, hnext, hok, hb⟩ := hbrings
    exact ⟨i, _, stamp, iter, datagram, fragment, iter', ⟨before, after, heq, rfl, hok⟩, hnext, hb⟩

/-- No ack is made up: an ack that any node holds is the stamp of a datagram that some node has
queued earlier in the run. -/
theorem ack_names_sent_datagram (hsilent : Silent c) (hunacked : Unacked c)
    (hallowed : Allowed machine Linked steps c) {i : ι} {j : Nat}
    (hack : ((c.run machine steps).procs i).node.state.acks j ≠ 0) :
    ∃ k n iter, SentDatagram steps c k n
      (((c.run machine steps).procs i).node.state.acks j) iter := by
  have hend : acks.Present (c.run machine steps)
      (((c.run machine steps).procs i).node.state.acks j) := Or.inl ⟨i, hack, Or.inl ⟨j, rfl⟩⟩
  rcases acks_conserved.run hallowed hend with (⟨k, -, hk⟩ | ⟨p, hp, -⟩) | hbrought
  · rcases hk with ⟨l, hl⟩ | ⟨b, hb, -⟩
    · exact absurd (hl.symm.trans (hunacked k l)) hack
    · exact absurd hb (hsilent.held k b)
  · rw [hsilent.air] at hp
    exact absurd hp List.not_mem_nil
  · obtain ⟨before, k, a, after, heq, iter, rfl, hok⟩ := hbrought
    exact ⟨k, _, iter, before, after, heq, rfl, hok⟩

end Runs

section Delivery

instance (a : Action) (p : Proc) : Decidable (machine.enabled a p) :=
  inferInstanceAs (Decidable (a.Enabled p))

/-- A follower with the address 9 beside the relay with the address 5. -/
def pair : Network Bool Proc Bytes :=
  ⟨fun i => ⟨.done, if i then forwardingRelay else Acks.ackedFollower⟩, []⟩

def pairDatagram : Bytes := (⟨98, 9, .datagram 1 1 0⟩ : Message).toBytes ++ [42]

/-- The follower sends its datagram; the relay takes it, passes it on and acknowledges it, and the
follower hears that. -/
def delivery : List (Bool × Action) :=
  [(false, .call (.sendDatagram 98 (DatagramIterator.create [42] 200))),
    (false, .call (.doFollowerSend 98 98 true)),
    (true, .call (.doClusterheadRecv ⟨98, 98, .accepted [pairDatagram]⟩)),
    (true, .call (.doClusterheadSend forwardingRun.send)),
    (false, .call (.doFollowerRecv 113 [⟨113, .accepted Acks.relayFrame.msgs, 113⟩]))]

private theorem pair_silent : Silent pair where
  held i b h := by cases i <;> exact h.elim List.not_mem_nil List.not_mem_nil
  air := rfl

private theorem pair_unacked : Unacked pair := by
  intro i j
  cases i <;> rfl

private theorem delivery_allowed :
    Allowed machine (fun i j => i ≠ j) delivery pair := by decide +kernel

theorem forwarded_datagram_was_sent :
    ∃ i n stamp iter datagram fragment iter', SentDatagram delivery pair i n stamp iter ∧
      iter.next = some (datagram, fragment, iter') ∧
        pairDatagram = Message.toBytes ⟨stamp, n.state.address, datagram⟩ ++ fragment :=
  datagram_was_sent pair_silent delivery_allowed (by decide +kernel)
    (Or.inr (by decide +kernel : ∃ p ∈ (pair.run machine delivery).air, p.2 = pairDatagram))

theorem heard_ack_names_sent_datagram :
    ∃ k n iter, SentDatagram delivery pair k n
      (((pair.run machine delivery).procs false).node.state.acks 0) iter :=
  ack_names_sent_datagram pair_silent pair_unacked delivery_allowed
    (by decide +kernel : ((pair.run machine delivery).procs false).node.state.acks 0 ≠ 0)

end Delivery

end LoraMultihop.Multihop.Network
