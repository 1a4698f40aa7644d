/- digest: What the functions of the layer do to the messages a node holds and sends. -/

import LoraMultihop.Multihop.Api
import LoraMultihop.Multihop.Relay

set_option autoImplicit false
set_option relaxedAutoImplicit false

namespace LoraMultihop.Multihop.Traffic

open LoraMultihop.Foundation.ByteMemory (Bytes)
open LoraMultihop.Net.Params
open LoraMultihop.Link
open LoraMultihop.Multihop.Messages
open LoraMultihop.Multihop.State
open LoraMultihop.Multihop.Sending
open LoraMultihop.Multihop.Slots
open LoraMultihop.Multihop.Discovery
open LoraMultihop.Multihop.Advertise
open LoraMultihop.Multihop.Api (Op)
open LoraMultihop.Multihop.Relay (isDatagram)

/-- What the link layer has been told of the network and its buffers, and its code. -/
def settings (s : Queue.State) : Bool × MacParams × Nat × Nat × UInt8 :=
  (s.initialized, s.mac, s.msgMaxBytes, s.txSz, s.code)

/-- From `n` to `n'` the messages queued or sent were queued before or satisfy `new`, those to be
read were there before or satisfy `heard`, and the frames go out on a code that does not change, nor
do the other settings. -/
structure Moves (new heard : Bytes → Prop) (n n' : Node) (frames : List Queue.Frame) : Prop where
  tx : ∀ b ∈ n'.link.tx, b ∈ n.link.tx ∨ new b
  sent : ∀ f ∈ frames, f.code = n.link.code ∧ ∀ b ∈ f.msgs, b ∈ n.link.tx ∨ new b
  rx : ∀ b ∈ n'.link.rx, b ∈ n.link.rx ∨ heard b
  kept : settings n'.link = settings n.link

theorem Moves.code {new heard : Bytes → Prop} {n n' : Node} {frames : List Queue.Frame}
    (h : Moves new heard n n' frames) : n'.link.code = n.link.code := by
  have hkept := h.kept
  simp only [settings, Prod.mk.injEq] at hkept
  exact hkept.2.2.2.2

section Composition

variable {new heard : Bytes → Prop} {a b c : Node} {fs gs : List Queue.Frame}

private theorem Moves.of_link (htx : b.link.tx = a.link.tx) (hrx : b.link.rx = a.link.rx)
    (hkept : settings b.link = settings a.link) : Moves new heard a b [] where
  tx _ hb := Or.inl (htx ▸ hb)
  sent _ hf := absurd hf List.not_mem_nil
  rx _ hb := Or.inl (hrx ▸ hb)
  kept := hkept

private theorem Moves.refl (a : Node) : Moves new heard a a [] := Moves.of_link rfl rfl rfl

private theorem Moves.trans (h : Moves new heard a b fs) (h' : Moves new heard b c gs) :
    Moves new heard a c (fs ++ gs) := by
  have htx (x : Bytes) (hx : x ∈ b.link.tx ∨ new x) : x ∈ a.link.tx ∨ new x :=
    hx.elim (h.tx x) Or.inr
  refine ⟨fun x hx => htx x (h'.tx x hx), ?_, ?_, h'.kept.trans h.kept⟩
  · intro f hf
    cases List.mem_append.mp hf with
    | inl hf => exact h.sent f hf
    | inr hf =>
        obtain ⟨hcode, hmsgs⟩ := h'.sent f hf
        exact ⟨hcode.trans h.code, fun x hx => htx x (hmsgs x hx)⟩
  · intro x hx
    exact (h'.rx x hx).elim (h.rx x) Or.inr

private theorem Moves.before (h : Moves new heard a b []) (h' : Moves new heard b c gs) :
    Moves new heard a c gs := h.trans h'

private theorem Moves.after (h : Moves new heard a b fs) (h' : Moves new heard b c []) :
    Moves new heard a c fs := by
  have htrans := h.trans h'
  rwa [List.append_nil] at htrans

private theorem Moves.mono {new' heard' : Bytes → Prop} (h : Moves new heard a b fs)
    (hnew : ∀ x, new x → new' x) (hheard : ∀ x, heard x → heard' x) :
    Moves new' heard' a b fs where
  tx x hx := (h.tx x hx).imp_right (hnew x)
  sent f hf := ⟨(h.sent f hf).1, fun x hx => ((h.sent f hf).2 x hx).imp_right (hnew x)⟩
  rx x hx := (h.rx x hx).imp_right (hheard x)
  kept := h.kept

end Composition

section Functions

variable {new heard : Bytes → Prop} {n : Node}

private theorem Moves.send {m : Message} {tail : Bytes} (h : new (m.toBytes ++ tail)) (n : Node) :
    Moves new heard n (Sending.send m tail n).2 [] := by
  rcases send_cases m tail n with ⟨-, -, hn⟩ | ⟨-, -, hn⟩
  · rw [hn]
    refine ⟨?_, fun _ hf => absurd hf List.not_mem_nil, fun _ hb => Or.inl hb, rfl⟩
    intro b hb
    cases List.mem_append.mp hb with
    | inl hb => exact Or.inl hb
    | inr hb => exact Or.inr (List.mem_singleton.mp hb ▸ h)
  · rw [hn]
    exact Moves.refl n

private theorem Moves.say {m : Message} (h : new m.toBytes) (n : Node) :
    Moves new heard n (Sending.send m [] n).2 [] :=
  Moves.send (by rwa [List.append_nil]) n

private theorem Moves.flush (now : UInt32) (sent : Bool) (n : Node) :
    Moves new heard n (Sending.flush now sent n).2.1 (Sending.flush now sent n).2.2 := by
  by_cases hg : GoesOut now sent n
  · rw [flush_out hg]
    refine ⟨fun _ hb => absurd hb List.not_mem_nil, ?_, fun _ hb => Or.inl hb, rfl⟩
    intro f hf
    rw [List.mem_singleton.mp hf]
    exact ⟨rfl, fun _ hb => Or.inl hb⟩
  · obtain ⟨-, hframes, w, hw⟩ := flush_kept hg
    rw [hframes, hw]
    exact Moves.of_link rfl rfl rfl

/-- What a wait on the radio can bring. -/
def delivered : Queue.Arrival → List Bytes
  | .accepted msgs => msgs
  | _ => []

private theorem Moves.queueRecv (now : UInt32) {arrival : Queue.Arrival}
    (h : ∀ b ∈ delivered arrival, heard b) (n : Node) :
    Moves new heard n { n with link := (Queue.recv now arrival n.link).2 } [] := by
  rcases Queue.recv_cases now arrival n.link with ⟨-, w, hs⟩ | ⟨-, w, hs⟩
  · rw [hs]
    exact Moves.of_link rfl rfl rfl
  · rw [hs]
    refine ⟨fun _ hb => Or.inl hb, fun _ hf => absurd hf List.not_mem_nil, ?_, rfl⟩
    intro b hb
    apply Or.inr
    apply h
    cases arrival <;> exact hb

private theorem Moves.recv (now : UInt32) {arrival : Queue.Arrival}
    (h : ∀ b ∈ delivered arrival, heard b) (n : Node) :
    Moves new heard n (Discovery.recv now arrival n).2 [] := Moves.queueRecv now h n

private theorem Moves.drained (n : Node) : Moves new heard n (drained n) [] where
  tx _ hb := Or.inl hb
  sent _ hf := absurd hf List.not_mem_nil
  rx _ hb := absurd hb List.not_mem_nil
  kept := rfl

private theorem Moves.getmsg (n : Node) :
    Moves new heard n { n with link := (Queue.getmsg n.link).2 } [] := by
  rw [Queue.getmsg]
  cases hrx : n.link.rx with
  | nil => exact Moves.refl n
  | cons b rest =>
      refine ⟨fun _ hb => Or.inl hb, fun _ hf => absurd hf List.not_mem_nil, ?_, rfl⟩
      intro c hc
      rw [hrx]
      exact Or.inl (List.mem_cons_of_mem _ hc)

private theorem Moves.activeSlot (now : UInt32) (n : Node) :
    Moves new heard n (Slots.activeSlot now n).2 [] := Moves.of_link rfl rfl rfl

private theorem Moves.request {m : Message} (h : new m.toBytes) (n : Node) :
    Moves new heard n
      (if n.state.initialized = false then (RC.notInit, n) else Sending.send m [] n).2 [] := by
  split_ifs
  · exact Moves.refl n
  · exact Moves.say h n

private theorem Moves.assign (follower : Address) (n : Node) :
    Moves new heard n (Sending.assign follower n) [] := by
  rw [Sending.assign]
  split_ifs
  · exact Moves.of_link rfl rfl rfl
  · exact Moves.refl n

theorem Moves.accept {follower : Address} {remote stamp : UInt32}
    (h : new (acceptMessage follower remote stamp n).toBytes) :
    Moves new heard n (Sending.accept follower remote stamp n).2 [] := by
  by_cases hi : n.state.initialized = true
  · rw [accept_snd remote stamp hi]
    exact (Moves.assign follower n).before (Moves.say h _)
  · rw [Sending.accept, if_pos (by simpa using hi)]
    exact Moves.refl n

private theorem Moves.extends {n' : Node} (h : Extends new n n') : Moves new heard n n' [] := by
  obtain ⟨msgs, hnew, -, hlink⟩ := h
  refine ⟨?_, fun _ hf => absurd hf List.not_mem_nil, ?_, ?_⟩
  · intro b hb
    rw [hlink] at hb
    exact (List.mem_append.mp hb).imp_right (hnew b)
  · intro b hb
    rw [hlink] at hb
    exact Or.inl hb
  · rw [hlink]
    rfl

end Functions

/-- The bodies that a step of `do_advertise` may send. -/
def Said (inp : Input) : Body → Prop
  | .heartbeat _ | .openCluster _ _ _ | .follow _ _ => True
  | .accept _ _ _ _ remote => remote = inp.now 0
  | _ => False

def Own (inp : Input) (n : Node) (b : Bytes) : Prop :=
  ∃ stamp body, Said inp body ∧ b = Message.toBytes ⟨stamp, n.state.address, body⟩

section Advertising

variable {inp : Input} {n : Node} {heard : Bytes → Prop}

private theorem heard_delivered (inp : Input) : inp.heard = delivered inp.arrival := by
  rw [Input.heard]
  cases inp.arrival <;> rfl

private theorem Own.of_address {n' : Node} {b : Bytes} (h : Own inp n b)
    (haddr : n.state.address = n'.state.address) : Own inp n' b := by
  obtain ⟨stamp, body, hsaid, rfl⟩ := h
  exact ⟨stamp, body, hsaid, by rw [haddr]⟩

private theorem Moves.announceHeartbeat (stamp now : UInt32) (sent : Bool) (n : Node) :
    Moves (Own inp n) heard n (Discovery.announceHeartbeat stamp now sent n).1
      (Discovery.announceHeartbeat stamp now sent n).2 := by
  have hsend : Moves (Own inp n) heard n (sendHeartbeat stamp n).2 [] :=
    Moves.request ⟨stamp, .heartbeat n.state.ring, trivial, rfl⟩ n
  rw [Discovery.announceHeartbeat]
  dsimp only
  split_ifs
  · exact hsend.before (Moves.flush now sent _)
  · exact hsend

private theorem Moves.afterRecv (h : ∀ b ∈ inp.heard, heard b) (n : Node) :
    Moves (Own inp n) heard n (Discovery.afterRecv inp n) [] := by
  rw [heard_delivered] at h
  have hrecv : Moves (Own inp n) heard n (Discovery.recv (inp.now 0) inp.arrival n).2 [] :=
    Moves.recv _ h n
  rw [Discovery.afterRecv]
  dsimp only
  split_ifs
  · exact hrecv.before (Moves.drained _)
  · exact hrecv

private theorem Moves.discoveryPass (h : ∀ b ∈ inp.heard, heard b) (l : DiscoveryLocals)
    (n : Node) : Moves (Own inp n) heard n (Discovery.discoveryPass inp l n).2.1
      (Discovery.discoveryPass inp l n).2.2 := by
  have hpass : Moves (Own inp n) heard n
      { Discovery.afterRecv inp n with state := heardState inp n } [] :=
    (Moves.afterRecv h n).before (Moves.of_link rfl rfl rfl)
  obtain ⟨neighbors, ring, rounds, hstate⟩ := heardState_kept inp n
  cases discoveryPass_cases inp l n with
  | inl heq =>
      rw [heq]
      have hbeat (n' : Node) : Moves (Own inp n') heard n'
          (Discovery.announceHeartbeat (inp.now 1) (inp.now 2) inp.sent n').1
          (Discovery.announceHeartbeat (inp.now 1) (inp.now 2) inp.sent n').2 :=
        Moves.announceHeartbeat ..
      refine hpass.before ((hbeat _).mono ?_ fun _ hb => hb)
      intro b hb
      apply hb.of_address
      dsimp only
      rw [hstate]
  | inr heq =>
      rw [heq]
      exact hpass

private theorem Moves.announceCluster (l : AnnounceLocals) (n : Node) :
    Moves (Own inp n) heard n (Advertise.announceCluster inp l n).2.1
      (Advertise.announceCluster inp l n).2.2 := by
  have hopen : Moves (Own inp n) heard n (openCluster (inp.now 1) n).2 [] :=
    Moves.request ⟨_, .openCluster n.state.ring n.state.address n.state.neighbors, trivial, rfl⟩ n
  rw [Advertise.announceCluster]
  dsimp only
  split_ifs
  · exact hopen.before (Moves.flush _ _ _)
  · exact hopen
  · exact Moves.refl n

private theorem Moves.announcementPass (h : ∀ b ∈ inp.heard, heard b) (l : AnnounceLocals)
    (n : Node) : Moves (Own inp n) heard n (Advertise.announcementPass inp l n).2.1
      (Advertise.announcementPass inp l n).2.2 := by
  rw [heard_delivered] at h
  have hrecv : Moves (Own inp n) heard n (Discovery.recv (inp.now 0) inp.arrival n).2 [] :=
    Moves.recv _ h n
  rw [announcementPass_eq]
  exact (hrecv.before ((Moves.announceCluster l _).mono (fun _ hb => hb) fun _ hb => hb)).after
    (Moves.drained _)

private theorem Moves.joinHead (l : JoinLocals) (n : Node) :
    Moves (Own inp n) heard n (Advertise.joinHead inp l n).2.1
      (Advertise.joinHead inp l n).2.2 := by
  have hfollow : Moves (Own inp n) heard n (follow l.targetNode (inp.now 0) n).2 [] :=
    Moves.request ⟨_, .follow l.targetNode n.state.address, trivial, rfl⟩ n
  rw [Advertise.joinHead]
  dsimp only
  split_ifs
  · exact hfollow.before (Moves.flush _ _ _)
  · exact Moves.refl n
  · exact Moves.refl n

private theorem Moves.answerFollow (isClusterhead : Bool) (m : Message) (n : Node) :
    Moves (Own inp n) heard n (Advertise.answerFollow inp isClusterhead m n).1
      (Advertise.answerFollow inp isClusterhead m n).2 := by
  have haccept : Moves (Own inp n) heard n
      (Sending.accept m.src (inp.now 0) (inp.now 1) n).2 [] := by
    apply Moves.accept
    rw [acceptMessage]
    split
    · exact ⟨_, .accept 1 m.src _ _ (inp.now 0), rfl, rfl⟩
    · exact ⟨_, .accept 0 m.src 0 0 (inp.now 0), rfl, rfl⟩
  rcases answerFollow_cases inp isClusterhead m n with heq | ⟨-, -, -, heq⟩
  · rw [heq]
    exact Moves.refl n
  · rw [heq]
    exact haccept.before (Moves.flush _ _ _)

private theorem Moves.joinMessage (round : Nat) (isClusterhead : Bool) (l : JoinLocals) (n : Node) :
    Moves (Own inp n) heard n (Advertise.joinMessage inp round isClusterhead l n).1.node
      (Advertise.joinMessage inp round isClusterhead l n).2 := by
  have hget : Moves (Own inp n) heard n { n with link := (Queue.getmsg n.link).2 } [] :=
    Moves.getmsg n
  rw [Advertise.joinMessage]
  dsimp only
  split
  · exact hget
  · next m _ _ =>
    refine (hget.before ((Moves.answerFollow isClusterhead m _).mono (fun _ hb => hb)
      fun _ hb => hb)).after ?_
    dsimp only
    have hlink := join_link inp l m
      (Advertise.answerFollow inp isClusterhead m { n with link := (Queue.getmsg n.link).2 }).1
      (roundMs (Advertise.answerFollow inp isClusterhead m
        { n with link := (Queue.getmsg n.link).2 }).1.mac)
    exact Moves.of_link (by rw [hlink]) (by rw [hlink]) (by rw [hlink])

private theorem Moves.startRound (round : Nat) (earlier : Bool) (n : Node) :
    Moves (Own inp n) heard n (Advertise.startRound inp round earlier n).node [] := by
  rw [Advertise.startRound, startAnnouncement]
  dsimp only
  split_ifs
  · exact Moves.of_link rfl rfl rfl
  · exact Moves.of_link rfl rfl rfl
  · exact Moves.refl n

/-- What a step of a `do_advertise` under way does to the messages of its node. -/
theorem Moves.step {p : Proc} (hstarted : p.control ≠ .idle) (h : ∀ b ∈ inp.heard, heard b) :
    Moves (Own inp p.node) heard p.node (Advertise.step inp p).1.node
      (Advertise.step inp p).2 := by
  obtain ⟨control, n⟩ := p
  cases control with
  | idle => exact absurd rfl hstarted
  | discovery l =>
      rw [Advertise.step]
      dsimp only
      split_ifs
      · exact Moves.startRound ..
      · exact Moves.discoveryPass h l n
  | announcement round earlier l =>
      rw [Advertise.step]
      dsimp only
      split_ifs
      · exact Moves.refl n
      · exact Moves.announcementPass h l n
  | joining stage round isClusterhead l =>
      cases stage with
      | head =>
          rw [Advertise.step]
          dsimp only
          split_ifs
          · exact Moves.startRound ..
          · exact Moves.of_link rfl rfl rfl
          · exact Moves.joinHead l n
      | recv => exact Moves.recv _ (heard_delivered inp ▸ h) n
      | drain => exact Moves.joinMessage ..
  | done => exact Moves.refl n

theorem Moves.start (inp : Input) (heard : Bytes → Prop) (n : Node) :
    ∃ code, Moves (Own inp n) heard { n with link := { n.link with code := code } }
      (Advertise.step inp ⟨.idle, n⟩).1.node (Advertise.step inp ⟨.idle, n⟩).2 := by
  rw [Advertise.step]
  dsimp only
  split_ifs
  · exact ⟨n.link.code, Moves.activeSlot (inp.now 0) n⟩
  · exact ⟨Layer.hashCdmaCode DEFAULT_CODE, Moves.of_link rfl rfl rfl⟩

end Advertising

def advertiseFrames : List Input → Proc → List Queue.Frame
  | [], _ => []
  | inp :: inps, p => (step inp p).2 ++ advertiseFrames inps (step inp p).1

def sends : Op → Node → List Queue.Frame
  | .doAdvertise inps, n => advertiseFrames inps ⟨.idle, n⟩
  | .doFollowerSend slotNow flushNow sent, n => (doFollowerSend slotNow flushNow sent n).2.2
  | .doClusterheadSend inp, n => (doClusterheadSend inp n).2.2
  | .flush now sent, n => (Sending.flush now sent n).2.2
  | _, _ => []

def hears : Op → List Bytes
  | .doAdvertise inps => inps.flatMap Input.heard
  | .doFollowerRecv _ passes => passes.flatMap fun p => delivered p.arrival
  | .doClusterheadRecv inp => delivered inp.arrival
  | _ => []

def isAdvertise : Op → Bool
  | .doAdvertise _ => true
  | _ => false

/-- The type of message that a call queues on its own account, if it is not an ack or a datagram. -/
def asks : Op → MessageType → Bool
  | .openCluster _, .openCluster => true
  | .follow _ _, .follow => true
  | .accept _ _ _, .accept => true
  | .closeCluster _ _, .closeCluster => true
  | .sendHeartbeat _, .heartbeat => true
  | .doClusterheadSend _, .closeCluster => true
  | _, _ => false

theorem asks_type {op : Op} {t : MessageType} (h : asks op t = true) :
    t ≠ .datagram ∧ t ≠ .sendAcks := by
  refine ⟨?_, ?_⟩
  · rintro rfl
    cases op <;> exact absurd h (by simp [asks])
  · rintro rfl
    cases op <;> exact absurd h (by simp [asks])

/-- The messages that a call other than `do_advertise` can add to the queue of `n`. -/
inductive Makes (n : Node) : Op → Bytes → Prop
  | own (op : Op) (stamp : UInt32) (body : Body) (hasks : asks op body.type = true) :
      Makes n op (Message.toBytes ⟨stamp, n.state.address, body⟩)
  | acks (op : Op) (stamp : UInt32) (start : UInt8) (count : Nat)
      (hcount : start.toNat + count ≤ 255) : Makes n op (acksMessage n.state stamp start count)
  | datagram (stamp : UInt32) (iter : DatagramIterator) (datagram : Body) (fragment : Bytes)
      (iter' : DatagramIterator) (hnext : iter.next = some (datagram, fragment, iter'))
      (hok : (sendDatagram stamp iter n).1 = .ok) :
      Makes n (.sendDatagram stamp iter)
        (Message.toBytes ⟨stamp, n.state.address, datagram⟩ ++ fragment)
  | forward (inp : RecvInput) (b : Bytes) (hb : b ∈ delivered inp.arrival)
      (hdatagram : isDatagram b = true) :
      Makes n (.doClusterheadRecv inp) (b.take (UInt8.ofNat b.length).toNat)

theorem next_type {iter : DatagramIterator} {r : Body × Bytes × DatagramIterator}
    (h : iter.next = some r) : r.1.type = .datagram := by
  obtain ⟨fragment, hpeek, rfl⟩ := Option.map_eq_some_iff.mp h
  rw [DatagramIterator.peek] at hpeek
  split_ifs at hpeek
  obtain rfl := Option.some.inj hpeek
  rfl

section Calls

variable {new heard : Bytes → Prop} {n : Node}

private theorem takeClusterheadMsg_link (w : Bool × Node) (buf : Bytes) :
    (takeClusterheadMsg w buf).2.link = w.2.link := by
  rw [takeClusterheadMsg]
  dsimp only
  split
  · split_ifs <;> rfl
  · split_ifs <;> rfl
  · rfl

private theorem takeFrame_link (msgs : List Bytes) (n : Node) :
    (takeFrame msgs n).2.link = { n.link with rx := [] } := by
  have hfold (w : Bool × Node) : (msgs.foldl takeClusterheadMsg w).2.link = w.2.link := by
    induction msgs generalizing w with
    | nil => rfl
    | cons b msgs ih => rw [List.foldl_cons, ih, takeClusterheadMsg_link]
  exact hfold _

private theorem Moves.takeFrame (msgs : List Bytes) (n : Node) :
    Moves new heard n (Slots.takeFrame msgs n).2 [] := by
  have hlink := takeFrame_link msgs n
  refine ⟨?_, fun _ hf => absurd hf List.not_mem_nil, ?_, by rw [hlink]; rfl⟩
  · intro b hb
    rw [hlink] at hb
    exact Or.inl hb
  · intro b hb
    rw [hlink] at hb
    exact absurd hb List.not_mem_nil

private theorem Moves.waitLoop (chSlot : UInt8) {passes : List WaitPass}
    (h : ∀ p ∈ passes, ∀ b ∈ delivered p.arrival, heard b) (n : Node) :
    Moves new heard n (Slots.waitLoop chSlot passes n).2 [] := by
  induction passes generalizing n with
  | nil => exact Moves.refl n
  | cons p passes ih =>
      have hrecv : Moves new heard n
          { n with link := (Queue.recv p.recvNow p.arrival n.link).2 } [] :=
        Moves.queueRecv _ (h p List.mem_cons_self) n
      have htake (msgs : List Bytes) (n' : Node) :
          Moves new heard n' (Slots.takeFrame msgs n').2 [] := Moves.takeFrame msgs n'
      have hactive (n' : Node) : Moves new heard n' (Slots.activeSlot p.slotNow n').2 [] :=
        Moves.activeSlot _ n'
      have hframe := hrecv.before (htake (Queue.recv p.recvNow p.arrival n.link).2.rx _)
      have hslot := hframe.before (hactive _)
      rw [Slots.waitLoop]
      dsimp only
      split_ifs
      · exact hrecv
      · exact hrecv
      · exact hslot.before (ih (fun q hq => h q (List.mem_cons_of_mem _ hq)) _)
      · exact hslot
      · exact hframe

private theorem takeDatagram_cases (relative : UInt8) (n : Node) (b : Bytes) :
    takeDatagram relative n b = n ∨ isDatagram b = true ∧
      (takeDatagram relative n b).link =
        (Queue.sendmsg (b.take (UInt8.ofNat b.length).toNat) n.link).2 := by
  rw [takeDatagram, isDatagram]
  rcases decodeMsg b with _ | ⟨⟨sequence, src, body⟩, fragment⟩
  · exact Or.inl rfl
  · cases body with
    | datagram bytes count part => exact Or.inr ⟨rfl, rfl⟩
    | follow => exact Or.inl rfl
    | openCluster => exact Or.inl rfl
    | closeCluster => exact Or.inl rfl
    | accept => exact Or.inl rfl
    | heartbeat => exact Or.inl rfl
    | sendAcks => exact Or.inl rfl

private theorem Moves.takesOne (relative : UInt8) {b : Bytes}
    (h : isDatagram b = true → new (b.take (UInt8.ofNat b.length).toNat)) (n : Node) :
    Moves new heard n (takeDatagram relative n b) [] := by
  rcases takeDatagram_cases relative n b with heq | ⟨hdatagram, hqueued⟩
  · rw [heq]
    exact Moves.refl n
  · by_cases hok : (Queue.sendmsg (b.take (UInt8.ofNat b.length).toNat) n.link).1 = .ok
    · obtain ⟨hlink, -⟩ := Queue.sendmsg_ok hok
      rw [hlink] at hqueued
      refine ⟨?_, fun _ hf => absurd hf List.not_mem_nil, ?_, by rw [hqueued]; rfl⟩
      · intro c hc
        rw [hqueued] at hc
        refine (List.mem_append.mp hc).imp_right fun hc => ?_
        rw [List.mem_singleton.mp hc]
        exact h hdatagram
      · intro c hc
        rw [hqueued] at hc
        exact Or.inl hc
    · rw [Queue.sendmsg_rejected hok] at hqueued
      exact Moves.of_link (by rw [hqueued]) (by rw [hqueued]) (by rw [hqueued])

private theorem Moves.takeDatagrams (relative : UInt8) {msgs : List Bytes}
    (h : ∀ b ∈ msgs, isDatagram b = true → new (b.take (UInt8.ofNat b.length).toNat)) (n : Node) :
    Moves new heard n (msgs.foldl (takeDatagram relative) n) [] := by
  induction msgs generalizing n with
  | nil => exact Moves.refl n
  | cons b msgs ih =>
      exact (Moves.takesOne relative (h b List.mem_cons_self) n).before
        (ih (fun c hc => h c (List.mem_cons_of_mem _ hc)) _)

private theorem Moves.queueChMessages {op : Op} (hop : asks op .closeCluster = true)
    (inp : SendInput) {n' : Node} (hstate : n'.state = n.state) :
    Moves (Makes n op) heard n' (Slots.queueChMessages inp n') [] := by
  apply Moves.extends
  apply Extends.queueChMessages
  · intro stamp start count hcount _
    rw [hstate]
    exact .acks op stamp start count hcount
  · intro stamp renominate
    rw [hstate]
    exact .own op stamp (.closeCluster _ _) hop

private theorem Moves.doFollowerSend (slotNow flushNow : UInt32) (sent : Bool) (n : Node) :
    ∃ code, Moves new heard { n with link := { n.link with code := code } }
      (Slots.doFollowerSend slotNow flushNow sent n).2.1
      (Slots.doFollowerSend slotNow flushNow sent n).2.2 := by
  have hflush (s : MultihopState) (link : Queue.State) :
      Moves new heard ⟨s, link⟩ ⟨s, (Queue.flush flushNow sent link).2.1⟩
        (Queue.flush flushNow sent link).2.2 := by
    by_cases hg : Queue.GoesOut flushNow sent link
    · rw [Queue.flush_out hg]
      refine ⟨fun _ hb => absurd hb List.not_mem_nil, ?_, fun _ hb => Or.inl hb, rfl⟩
      intro f hf
      rw [List.mem_singleton.mp hf]
      exact ⟨rfl, fun _ hb => Or.inl hb⟩
    · obtain ⟨-, hframes, w, hw⟩ := Queue.flush_kept hg
      rw [hframes, hw]
      exact Moves.of_link rfl rfl rfl
  rw [Slots.doFollowerSend]
  dsimp only
  split_ifs
  · exact ⟨n.link.code, Moves.activeSlot slotNow n⟩
  · refine ⟨Layer.hashCdmaCode n.state.upstreamRelativeSlot, Moves.before ?_ (hflush _ _)⟩
    exact Moves.of_link rfl rfl rfl
  · refine ⟨Layer.hashCdmaCode n.state.upstreamRelativeSlot, Moves.before ?_ (hflush _ _)⟩
    exact Moves.of_link rfl rfl rfl

private theorem Moves.doFollowerRecv (slotNow : UInt32) {passes : List WaitPass}
    (h : ∀ p ∈ passes, ∀ b ∈ delivered p.arrival, heard b) (n : Node) :
    ∃ code, Moves new heard { n with link := { n.link with code := code } }
      (Slots.doFollowerRecv slotNow passes n).2 [] := by
  rw [Slots.doFollowerRecv]
  dsimp only
  split_ifs
  · exact ⟨n.link.code, Moves.refl n⟩
  · exact ⟨n.link.code, Moves.activeSlot slotNow n⟩
  · refine ⟨Layer.hashCdmaCode 0, Moves.before ?_ (Moves.waitLoop _ h _)⟩
    exact Moves.of_link rfl rfl rfl

private theorem Moves.doClusterheadSend (inp : SendInput) (n : Node) :
    ∃ code, Moves (Makes n (.doClusterheadSend inp)) heard
      { n with link := { n.link with code := code } }
      (Slots.doClusterheadSend inp n).2.1 (Slots.doClusterheadSend inp n).2.2 := by
  rw [Slots.doClusterheadSend]
  dsimp only
  split_ifs
  · exact ⟨n.link.code, Moves.activeSlot inp.slotNow n⟩
  · have hstart : Moves (Makes n (.doClusterheadSend inp)) heard
        { n with link := { n.link with code := Layer.hashCdmaCode 0 } }
        (setCdmaCode 0 (Slots.activeSlot inp.slotNow n).2) [] := Moves.of_link rfl rfl rfl
    have hqueue : Moves (Makes n (.doClusterheadSend inp)) heard
        (setCdmaCode 0 (Slots.activeSlot inp.slotNow n).2)
        (Slots.queueChMessages inp (setCdmaCode 0 (Slots.activeSlot inp.slotNow n).2)) [] :=
      Moves.queueChMessages rfl inp rfl
    exact ⟨_, hstart.before (hqueue.before (Moves.flush _ _ _))⟩

theorem Moves.doClusterheadRecv (inp : RecvInput) (h : ∀ b ∈ delivered inp.arrival, heard b)
    (hnew : ∀ b ∈ delivered inp.arrival, isDatagram b = true →
      new (b.take (UInt8.ofNat b.length).toNat)) (n : Node) :
    ∃ code, Moves new heard
      { n with link := { n.link with code := code } } (Slots.doClusterheadRecv inp n).2 [] := by
  rw [Slots.doClusterheadRecv]
  dsimp only
  split
  · exact ⟨n.link.code, Moves.activeSlot inp.slotNow n⟩
  · next relative _ =>
    have hstart : Moves new heard
        { n with link := { n.link with code := Layer.hashCdmaCode relative } }
        (setCdmaCode relative (Slots.activeSlot inp.slotNow n).2) [] := Moves.of_link rfl rfl rfl
    have hrecv := hstart.before (Moves.queueRecv inp.recvNow h _)
    refine ⟨Layer.hashCdmaCode relative, ?_⟩
    split_ifs with hrc
    · exact hrecv
    · exact hrecv
    · refine (hrecv.before (Moves.drained _)).before (Moves.takeDatagrams relative ?_ _)
      intro b hb hdatagram
      refine hnew b ?_ hdatagram
      rcases Queue.recv_cases inp.recvNow inp.arrival
        (setCdmaCode relative (Slots.activeSlot inp.slotNow n).2).link with ⟨hno, -⟩ | ⟨-, w, hs⟩
      · exact absurd (not_not.mp hrc) hno
      · rw [hs] at hb
        cases harrival : inp.arrival <;> rw [harrival] at hb <;> exact hb

private theorem Moves.epochAndOffset (slot : UInt8) (now : UInt32) (n : Node) :
    Moves new heard n (Api.epochAndOffset slot now n).2.2 [] := by
  rw [Api.epochAndOffset]
  split_ifs
  · exact Moves.refl n
  · rw [Queue.epochAndOffset]
    split_ifs <;> exact Moves.of_link rfl rfl rfl

private theorem Moves.sendAcks {op : Op} (ackStart ackEnd : UInt8) (stamp : UInt32) (n : Node) :
    Moves (Makes n op) heard n (Sending.sendAcks ackStart ackEnd stamp n).2.2 [] :=
  Moves.extends (Extends.sendAcks ackStart ackEnd stamp fun hcount _ =>
    .acks op stamp ackStart _ hcount)

private theorem Moves.sendDatagram (stamp : UInt32) (iter : DatagramIterator) (n : Node) :
    Moves (Makes n (.sendDatagram stamp iter)) heard n
      (Sending.sendDatagram stamp iter n).2.2 [] := by
  have hmakes (datagram : Body) (fragment : Bytes) (iter' : DatagramIterator)
      (hnext : iter.next = some (datagram, fragment, iter')) :
      (Sending.sendDatagram stamp iter n).1 = .ok →
        Makes n (.sendDatagram stamp iter)
          (Message.toBytes ⟨stamp, n.state.address, datagram⟩ ++ fragment) :=
    .datagram stamp iter datagram fragment iter' hnext
  rw [Sending.sendDatagram] at hmakes ⊢
  split_ifs at hmakes ⊢
  · exact Moves.refl n
  · cases hnext : iter.next with
    | none => exact Moves.refl n
    | some r =>
        obtain ⟨datagram, fragment, iter'⟩ := r
        have hmake := hmakes datagram fragment iter' hnext
        rw [hnext] at hmake
        dsimp only at hmake ⊢
        split_ifs at hmake ⊢
        · exact Moves.refl n
        · rcases send_cases ⟨stamp, n.state.address, datagram⟩ fragment n with
            ⟨hok, -, -⟩ | ⟨-, -, hn⟩
          · exact Moves.send (hmake hok) n
          · dsimp only
            rw [hn]
            exact Moves.refl n

private theorem Moves.acceptCall (follower : Address) (remote stamp : UInt32) (n : Node) :
    Moves (Makes n (.accept follower remote stamp)) heard n
      (Sending.accept follower remote stamp n).2 [] := by
  apply Moves.accept
  rw [acceptMessage]
  split
  · exact .own _ stamp (.accept 1 follower _ _ remote) rfl
  · exact .own _ stamp (.accept 0 follower 0 0 remote) rfl

/-- What a call other than `do_advertise` does to the messages of its node. -/
theorem Moves.exec {op : Op} (hop : isAdvertise op = false) (n : Node) :
    ∃ code, Moves (Makes n op) (· ∈ hears op) { n with link := { n.link with code := code } }
      (op.exec n) (sends op n) := by
  have plain {n' : Node} (h : Moves (Makes n op) (· ∈ hears op) n n' []) :
      ∃ code, Moves (Makes n op) (· ∈ hears op)
        { n with link := { n.link with code := code } } n' [] := ⟨n.link.code, h⟩
  have request {m : Message} (hsrc : m.src = n.state.address) (hasks : asks op m.body.type = true) :
      Makes n op m.toBytes := by
    obtain ⟨stamp, src, body⟩ := m
    obtain rfl : src = n.state.address := hsrc
    exact .own op stamp body hasks
  cases op with
  | doAdvertise inps => exact absurd hop (by simp [isAdvertise])
  | setClusterheadProbability p => exact plain (Moves.of_link rfl rfl rfl)
  | epochAndOffset slot now => exact plain (Moves.epochAndOffset slot now n)
  | advertisementSlot now => exact plain (Moves.epochAndOffset _ now n)
  | clusterheadSlot now =>
      apply plain
      rw [Op.exec, Api.clusterheadSlot]
      split_ifs
      · exact Moves.refl n
      · exact Moves.epochAndOffset _ now n
  | mySlotTime now =>
      apply plain
      rw [Op.exec, Api.mySlotTime]
      split_ifs
      · exact Moves.refl n
      · exact Moves.epochAndOffset _ now n
  | openCluster stamp =>
      exact plain (Moves.request (request rfl rfl) n)
  | follow clusterhead stamp =>
      exact plain (Moves.request (request rfl rfl) n)
  | accept follower remote stamp => exact plain (Moves.acceptCall follower remote stamp n)
  | closeCluster renominate stamp =>
      exact plain (Moves.request (request rfl rfl) n)
  | sendAcks ackStart ackEnd stamp => exact plain (Moves.sendAcks ackStart ackEnd stamp n)
  | sendHeartbeat stamp =>
      exact plain (Moves.request (request rfl rfl) n)
  | sendDatagram stamp iter => exact plain (Moves.sendDatagram stamp iter n)
  | doFollowerSend slotNow flushNow sent => exact Moves.doFollowerSend slotNow flushNow sent n
  | doFollowerRecv slotNow passes =>
      apply Moves.doFollowerRecv
      intro p hp b hb
      exact List.mem_flatMap.mpr ⟨p, hp, hb⟩
  | doClusterheadSend inp => exact Moves.doClusterheadSend inp n
  | doClusterheadRecv inp =>
      exact Moves.doClusterheadRecv inp (fun _ hb => hb) (fun b hb hd => .forward inp b hb hd) n
  | flush now sent => exact ⟨n.link.code, Moves.flush now sent n⟩

end Calls

end LoraMultihop.Multihop.Traffic
