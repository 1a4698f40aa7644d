/- digest: What messages the decoder rejects change in the five loops that receive. -/

import LoraMultihop.Foundation.ReceiveLoop
import LoraMultihop.Multihop.Advertise

set_option autoImplicit false
set_option relaxedAutoImplicit false

namespace LoraMultihop.Multihop.Rejected

open LoraMultihop.Foundation
open LoraMultihop.Foundation.ByteMemory (Bytes)
open LoraMultihop.Net.Params
open LoraMultihop.Link
open LoraMultihop.Multihop.Messages
open LoraMultihop.Multihop.State
open LoraMultihop.Multihop.Sending
open LoraMultihop.Multihop.Slots
open LoraMultihop.Multihop.Discovery
  (Input DiscoveryLocals Hearing hear heartbeatRing discoveryPass setupNode reading)
open LoraMultihop.Multihop.Advertise

def valid (b : Bytes) : Bool := (decodeMsg b).isSome

/-- The same readings, with `msgs` as the messages of the frame received. -/
def hearing (msgs : List Bytes) (inp : Input) : Input := { inp with arrival := .accepted msgs }

def withRx (msgs : List Bytes) (n : Node) : Node := { n with link := { n.link with rx := msgs } }

/-- The node without the rejected messages among those it has yet to read. -/
def stripRx (n : Node) : Node := withRx (n.link.rx.filter valid) n

/-- The frame of a pass without its rejected messages. -/
def strippedPass (p : WaitPass) : WaitPass :=
  { p with
    arrival :=
      match p.arrival with
      | .accepted msgs => .accepted (msgs.filter valid)
      | arrival => arrival }

/-- The inner loop of `run_clusterhead_joining` as it is left: where the node stands, the messages
it has handled and the frames that went out. -/
structure Joined where
  proc : Proc
  handled : List Message
  frames : List Queue.Frame

/-- Up to `fuel` rounds of the inner loop; round `i` takes the readings `inps i`. -/
def joinLoop : Nat → (Nat → Input) → Proc → Joined
  | 0, _, p => ⟨p, [], []⟩
  | fuel + 1, inps, p =>
      match p.control with
      | .joining .drain _ _ _ =>
          let handled := ((Queue.getmsg p.node.link).1.bind decodeMsg).toList.map Prod.fst
          let r := joinLoop fuel (fun i => inps (i + 1)) (step (inps 0) p).1
          ⟨r.proc, handled ++ r.handled, (step (inps 0) p).2 ++ r.frames⟩
      | _ => ⟨p, [], []⟩

/-- A node of the joining phase that has just received the frame `msgs`. -/
def joiner (round : Nat) (isClusterhead : Bool) (l : JoinLocals) (n : Node) (msgs : List Bytes) :
    Proc :=
  ⟨.joining .drain round isClusterhead l, withRx msgs n⟩

/-- The joining phase makes of the frame what it makes of it without the rejected messages. -/
def JoiningIgnores (inps : Nat → Input) (round : Nat) (isClusterhead : Bool) (l : JoinLocals)
    (n : Node) (frame : List Bytes) : Prop :=
  let r := joinLoop (frame.length + 1) inps (joiner round isClusterhead l n frame)
  let r' := joinLoop (frame.length + 1) inps
    (joiner round isClusterhead l n (frame.filter valid))
  r'.handled = r.handled ∧ r'.frames = r.frames ∧ r'.proc.control = r.proc.control ∧
    r'.proc.node = stripRx r.proc.node

/-- The answer that a message brings a node that waits for one from its target. -/
def answerOf (l : JoinLocals) (s : MultihopState) (b : Bytes) : Option UInt8 :=
  match decodeMsg b with
  | some (⟨_, src, .accept accepted follower _ _ _⟩, _) =>
      if l.joined = false ∧ l.eligibleFollower = true ∧ src = l.targetNode ∧
          follower = s.address then some accepted
      else none
  | _ => none

def Refused (l : JoinLocals) (s : MultihopState) (msgs : List Bytes) : Prop :=
  (msgs.filterMap (answerOf l s)).head? = some 0

/-- The five loops make of the frame what they make of it without the rejected messages. -/
structure AllIgnore (inps : Nat → Input) (round : Nat) (isClusterhead : Bool) (l : JoinLocals)
    (n : Node) (frame : List Bytes) : Prop where
  discovery (inp : Input) (l : DiscoveryLocals) :
    discoveryPass (hearing (frame.filter valid) inp) l n = discoveryPass (hearing frame inp) l n
  announcement (inp : Input) (l : AnnounceLocals) :
    announcementPass (hearing (frame.filter valid) inp) l n =
      announcementPass (hearing frame inp) l n
  joining : JoiningIgnores inps round isClusterhead l n frame
  follower (slotNow recvNow passNow : UInt32) (before after : List WaitPass) :
    doFollowerRecv slotNow
        (before ++ ⟨recvNow, .accepted (frame.filter valid), passNow⟩ :: after) n =
      doFollowerRecv slotNow (before ++ ⟨recvNow, .accepted frame, passNow⟩ :: after) n
  clusterhead (inp : RecvInput) :
    doClusterheadRecv { inp with arrival := .accepted (frame.filter valid) } n =
      doClusterheadRecv { inp with arrival := .accepted frame } n

/-- The inner loop between two messages: how many it has handled, the locals, the node and the
frames that went out. -/
structure JoinState where
  index : Nat
  locals : JoinLocals
  node : Node
  frames : List Queue.Frame

/-- What the inner loop does with a message; the flag ends it. -/
def joinHandle (inps : Nat → Input) (isClusterhead : Bool) (s : JoinState) (b : Bytes) :
    JoinState × Bool :=
  match decodeMsg b with
  | none => (s, false)
  | some (m, _) =>
      let (n, frames) := answerFollow (inps s.index) isClusterhead m s.node
      let (stop, l, n) := join (inps s.index) s.locals m n (roundMs n.mac)
      (⟨s.index + 1, l, n, s.frames ++ frames⟩, stop)

section Skipping

private theorem hear_rejected (inp : Input) (l : DiscoveryLocals) (h : Hearing) (b : Bytes)
    (hb : valid b = false) : hear inp l h b = h := by
  have hnone : decodeMsg b = none := by simpa [valid] using hb
  rw [hear, heartbeatRing, hnone]

private theorem hearPeer_rejected (s : MultihopState) (l : AnnounceLocals) (b : Bytes)
    (hb : valid b = false) : hearPeer s l b = l := by
  have hnone : decodeMsg b = none := by simpa [valid] using hb
  rw [hearPeer, hnone]

private theorem takeClusterheadMsg_rejected (w : Bool × Node) (b : Bytes) (hb : valid b = false) :
    takeClusterheadMsg w b = w := by
  have hnone : decodeMsg b = none := by simpa [valid] using hb
  rw [takeClusterheadMsg, hnone]

private theorem takeDatagram_rejected (relative : UInt8) (n : Node) (b : Bytes)
    (hb : valid b = false) : takeDatagram relative n b = n := by
  have hnone : decodeMsg b = none := by simpa [valid] using hb
  rw [takeDatagram, hnone]

private theorem recv_accepted (now : UInt32) (s : Queue.State) :
    (∃ rc w, rc ≠ .ok ∧
        ∀ msgs, Queue.recv now (.accepted msgs) s = (rc, { s with macState := w })) ∨
      ∃ w, ∀ msgs,
        Queue.recv now (.accepted msgs) s = (.ok, { s with macState := w, rx := msgs }) := by
  by_cases hi : s.initialized = false
  · refine Or.inl ⟨.notInit, s.macState, by simp, ?_⟩
    intro msgs
    rw [Queue.recv, if_pos hi]
  · by_cases ha : Mac.inActiveWindow (Queue.refreshed now s).macState now = false
    · refine Or.inl ⟨.notInWindow, (Queue.refreshed now s).macState, by simp, ?_⟩
      intro msgs
      rw [Queue.recv, if_neg hi]
      dsimp only
      rw [if_pos ha]
      rfl
    · refine Or.inr ⟨(Queue.refreshed now s).macState, ?_⟩
      intro msgs
      rw [Queue.recv, if_neg hi]
      dsimp only
      rw [if_neg ha]
      rfl

end Skipping

section Unread

variable {msgs : List Bytes} {n : Node}

/-! What a function returns and the node it leaves do not depend on the messages yet to be read. -/

private theorem sendmsg_rx (b : Bytes) (s : Queue.State) :
    Queue.sendmsg b { s with rx := msgs } =
      ((Queue.sendmsg b s).1, { (Queue.sendmsg b s).2 with rx := msgs }) := by
  cases s
  simp only [Queue.sendmsg, Queue.txBytesAvailable]
  split_ifs <;> rfl

private theorem linkFlush_rx (now : UInt32) (sent : Bool) (s : Queue.State) :
    Queue.flush now sent { s with rx := msgs } =
      ((Queue.flush now sent s).1, { (Queue.flush now sent s).2.1 with rx := msgs },
        (Queue.flush now sent s).2.2) := by
  rw [Queue.flush, Queue.flush]
  by_cases hi : s.initialized = false
  · rw [if_pos hi, if_pos hi]
  · rw [if_neg hi, if_neg hi]
    dsimp only [Queue.refreshed]
    by_cases ha : Mac.inActiveWindow (Mac.refreshWindow s.mac s.macState now) now = false
    · rw [if_pos ha, if_pos ha]
    · rw [if_neg ha, if_neg ha]
      split_ifs <;> rfl

private theorem send_withRx (m : Message) (tail : Bytes) :
    send m tail (withRx msgs n) = ((send m tail n).1, withRx msgs (send m tail n).2) := by
  have hlink := @sendmsg_rx msgs (m.toBytes ++ tail) n.link
  simp only [send, withRx, hlink]

private theorem flush_withRx (now : UInt32) (sent : Bool) :
    Sending.flush now sent (withRx msgs n) =
      ((Sending.flush now sent n).1, withRx msgs (Sending.flush now sent n).2.1,
        (Sending.flush now sent n).2.2) := by
  have hlink := @linkFlush_rx msgs now sent n.link
  simp only [Sending.flush, withRx, hlink]
  split_ifs <;> rfl

private theorem openCluster_withRx (stamp : UInt32) :
    openCluster stamp (withRx msgs n) =
      ((openCluster stamp n).1, withRx msgs (openCluster stamp n).2) := by
  have hstate : (withRx msgs n).state = n.state := rfl
  rw [openCluster, openCluster, hstate]
  by_cases hi : n.state.initialized = false
  · rw [if_pos hi, if_pos hi]
  · rw [if_neg hi, if_neg hi]
    exact send_withRx ..

private theorem accept_withRx (follower : Address) (remote stamp : UInt32) :
    accept follower remote stamp (withRx msgs n) =
      ((accept follower remote stamp n).1, withRx msgs (accept follower remote stamp n).2) := by
  have hstate : (withRx msgs n).state = n.state := rfl
  have hmac : (withRx msgs n).mac = n.mac := rfl
  rw [accept, accept, hstate, hmac]
  by_cases hi : n.state.initialized = false
  · rw [if_pos hi, if_pos hi]
  · rw [if_neg hi, if_neg hi]
    dsimp only
    cases assignedSlot follower n.state with
    | some i => exact send_withRx ..
    | none =>
        dsimp only
        split_ifs
        · rw [send_withRx]
        · have hassigned := @send_withRx msgs
            { n with
              state :=
                { n.state with
                  slotAssignments := fun i =>
                    if i = n.state.slotsAssigned.toNat then follower else n.state.slotAssignments i
                  slotsAssigned := n.state.slotsAssigned + 1 } }
          exact hassigned _ _

private theorem answerFollow_withRx (inp : Input) (isClusterhead : Bool) (m : Message) :
    answerFollow inp isClusterhead m (withRx msgs n) =
      (withRx msgs (answerFollow inp isClusterhead m n).1,
        (answerFollow inp isClusterhead m n).2) := by
  rw [answerFollow, answerFollow]
  cases m.body with
  | follow clusterhead follower =>
      have hstate : (withRx msgs n).state = n.state := rfl
      dsimp only
      rw [hstate]
      split_ifs
      · rw [accept_withRx, flush_withRx]
      · rfl
  | _ => rfl

private theorem join_withRx (inp : Input) (l : JoinLocals) (m : Message) (durationMs : UInt32) :
    join inp l m (withRx msgs n) durationMs =
      ((join inp l m n durationMs).1, (join inp l m n durationMs).2.1,
        withRx msgs (join inp l m n durationMs).2.2) := by
  have hpromote (n : Node) : promote (inp.rand 0) (withRx msgs n) =
      withRx msgs (promote (inp.rand 0) n) := by
    have hstate : (withRx msgs n).state = n.state := rfl
    rw [promote, promote, hstate]
    split_ifs <;> rfl
  rw [join, join]
  cases m.body with
  | accept accepted follower startSlot relativeSlot remote =>
      have hstate : (withRx msgs n).state = n.state := rfl
      dsimp only
      rw [hstate]
      split_ifs
      · rw [← hpromote]
        rfl
      · rfl
      · rfl
  | _ => rfl

end Unread

section Passes

variable {n : Node} (frame : List Bytes)

private theorem discoveryPass_ignores (inp : Input) (l : DiscoveryLocals) (n : Node) :
    discoveryPass (hearing (frame.filter valid) inp) l n =
      discoveryPass (hearing frame inp) l n := by
  have hreceived (msgs : List Bytes) : Discovery.received (hearing msgs inp) n =
      (if (Discovery.recv (inp.now 0) (.accepted msgs) n).1 = .ok then
        (Discovery.recv (inp.now 0) (.accepted msgs) n).2.link.rx else []) := rfl
  have hafter (msgs : List Bytes) : Discovery.afterRecv (hearing msgs inp) n =
      (if (Discovery.recv (inp.now 0) (.accepted msgs) n).1 = .ok then
        Discovery.drained (Discovery.recv (inp.now 0) (.accepted msgs) n).2
      else (Discovery.recv (inp.now 0) (.accepted msgs) n).2) := rfl
  have hhear (msgs : List Bytes) : hear (hearing msgs inp) l = hear inp l := rfl
  rw [discoveryPass, discoveryPass, hreceived, hreceived, hafter, hafter, hhear, hhear]
  rcases recv_accepted (inp.now 0) n.link with ⟨rc, w, hrc, heq⟩ | ⟨w, heq⟩
  · simp only [Discovery.recv, heq, if_neg hrc]
    rfl
  · simp only [Discovery.recv, heq, if_true]
    rw [ReceiveLoop.foldl_filter_eq (hear_rejected inp l)]
    rfl

private theorem announcementPass_ignores (inp : Input) (l : AnnounceLocals) (n : Node) :
    announcementPass (hearing (frame.filter valid) inp) l n =
      announcementPass (hearing frame inp) l n := by
  have hannounce (msgs : List Bytes) (n : Node) :
      announceCluster inp l (withRx msgs n) =
        ((announceCluster inp l n).1, withRx msgs (announceCluster inp l n).2.1,
          (announceCluster inp l n).2.2) := by
    rw [announceCluster, announceCluster, openCluster_withRx]
    dsimp only
    rw [flush_withRx]
    split_ifs <;> rfl
  have hpass (msgs : List Bytes) : announcementPass (hearing msgs inp) l n =
      (let r := announceCluster inp l (Discovery.recv (inp.now 0) (.accepted msgs) n).2
      (r.2.1.link.rx.foldl (hearPeer r.2.1.state) r.1, Discovery.drained r.2.1, r.2.2)) := rfl
  rw [hpass, hpass]
  rcases recv_accepted (inp.now 0) n.link with ⟨rc, w, hrc, heq⟩ | ⟨w, heq⟩
  · simp only [Discovery.recv, heq]
  · have hrx (msgs : List Bytes) : (Discovery.recv (inp.now 0) (.accepted msgs) n).2 =
        withRx msgs { n with link := { n.link with macState := w } } := by
      rw [Discovery.recv, heq]
      rfl
    simp only [hrx, hannounce]
    generalize announceCluster inp l { n with link := { n.link with macState := w } } = r
    have hfold : (frame.filter valid).foldl (hearPeer r.2.1.state) r.1 =
        frame.foldl (hearPeer r.2.1.state) r.1 :=
      ReceiveLoop.foldl_filter_eq (hearPeer_rejected _) frame r.1
    exact Prod.ext hfold rfl

private theorem takeFrame_ignores (n : Node) :
    takeFrame (frame.filter valid) (withRx (frame.filter valid) n) =
      takeFrame frame (withRx frame n) :=
  ReceiveLoop.foldl_filter_eq takeClusterheadMsg_rejected frame _

private theorem doFollowerRecv_ignores (slotNow : UInt32) (passes : List WaitPass) (n : Node) :
    doFollowerRecv slotNow (passes.map strippedPass) n = doFollowerRecv slotNow passes n := by
  have hwait (chSlot : UInt8) (n : Node) :
      waitLoop chSlot (passes.map strippedPass) n = waitLoop chSlot passes n := by
    induction passes generalizing n with
    | nil => rfl
    | cons p passes ih =>
        obtain ⟨recvNow, arrival, slotNow⟩ := p
        rw [List.map_cons, waitLoop, waitLoop, strippedPass]
        cases arrival with
        | timedOut => simp only [ih]
        | rejected rc => simp only [ih]
        | accepted msgs =>
            rcases recv_accepted recvNow n.link with ⟨rc, w, hrc, heq⟩ | ⟨w, heq⟩
            · simp only [heq, if_pos hrc]
            · have htake := takeFrame_ignores msgs
                { n with link := { n.link with macState := w } }
              simp only [withRx] at htake
              simp only [heq, htake, ih, ne_eq, not_true_eq_false, if_false]
  rw [doFollowerRecv, doFollowerRecv]
  dsimp only
  rw [hwait]

private theorem doClusterheadRecv_ignores (inp : RecvInput) (n : Node) :
    doClusterheadRecv { inp with arrival := .accepted (frame.filter valid) } n =
      doClusterheadRecv { inp with arrival := .accepted frame } n := by
  rw [doClusterheadRecv, doClusterheadRecv]
  dsimp only
  cases listensTo (activeSlot inp.slotNow n).1 (activeSlot inp.slotNow n).2 with
  | none => rfl
  | some relative =>
      dsimp only
      rcases recv_accepted inp.recvNow (setCdmaCode relative (activeSlot inp.slotNow n).2).link with
        ⟨rc, w, hrc, heq⟩ | ⟨w, heq⟩
      · simp only [heq, if_pos hrc]
      · simp only [heq, ne_eq, not_true_eq_false, if_false]
        rw [ReceiveLoop.foldl_filter_eq (takeDatagram_rejected relative)]

end Passes

section Joining

variable {inps : Nat → Input} {isClusterhead : Bool} {round : Nat}

private theorem joinMessage_rejected (inp : Input) (l : JoinLocals) (n : Node) {b : Bytes}
    (bs : List Bytes) (hb : valid b = false) :
    joinMessage inp round isClusterhead l (withRx (b :: bs) n) =
      (⟨.joining .head round isClusterhead l, withRx bs n⟩, []) := by
  have hnone : (some b).bind decodeMsg = none := by simpa [valid] using hb
  rw [joinMessage]
  simp only [withRx, Queue.getmsg, hnone]

private theorem joinMessage_handled (s : JoinState) {b : Bytes} (bs : List Bytes)
    (hb : valid b = true) :
    ∃ frames, joinMessage (inps s.index) round isClusterhead s.locals (withRx (b :: bs) s.node) =
        (⟨.joining (if (joinHandle inps isClusterhead s b).2 then .head else .drain) round
          isClusterhead (joinHandle inps isClusterhead s b).1.locals,
          withRx bs (joinHandle inps isClusterhead s b).1.node⟩, frames) ∧
      (joinHandle inps isClusterhead s b).1.frames = s.frames ++ frames ∧
        (joinHandle inps isClusterhead s b).1.index = s.index + 1 := by
  obtain ⟨⟨m, tail⟩, hm⟩ := Option.isSome_iff_exists.mp hb
  have hnext : Queue.getmsg (withRx (b :: bs) s.node).link =
      (some b, (withRx bs s.node).link) := rfl
  have hnode : { withRx (b :: bs) s.node with link := (withRx bs s.node).link } =
      withRx bs s.node := rfl
  rw [joinMessage, hnext, joinHandle, hm]
  dsimp only
  rw [hnode, Option.bind_some, hm]
  dsimp only
  rw [answerFollow_withRx]
  dsimp only
  rw [join_withRx]
  exact ⟨_, rfl, rfl, rfl⟩

private theorem joinLoop_eq (frame : List Bytes) (fuel : Nat) (hfuel : frame.length < fuel)
    (s : JoinState) :
    let r := ReceiveLoop.run valid true (joinHandle inps isClusterhead) frame s
    let j := joinLoop fuel (fun i => inps (s.index + i))
      (joiner round isClusterhead s.locals s.node frame)
    j.proc = ⟨.joining .head round isClusterhead r.state.locals, withRx r.left r.state.node⟩ ∧
      j.handled = r.handled.filterMap (fun b => (decodeMsg b).map Prod.fst) ∧
        r.state.frames = s.frames ++ j.frames := by
  induction frame generalizing fuel s with
  | nil =>
      obtain ⟨fuel, rfl⟩ := Nat.exists_eq_succ_of_ne_zero (Nat.ne_of_gt hfuel)
      cases fuel with
      | zero => exact ⟨rfl, rfl, (List.append_nil _).symm⟩
      | succ fuel => exact ⟨rfl, rfl, (List.append_nil _).symm⟩
  | cons b bs ih =>
      cases fuel with
      | zero => exact absurd hfuel (Nat.not_lt_zero _)
      | succ fuel =>
      have hhead (l : JoinLocals) (n : Node) (inps : Nat → Input) :
          joinLoop fuel inps ⟨.joining .head round isClusterhead l, n⟩ =
            ⟨⟨.joining .head round isClusterhead l, n⟩, [], []⟩ := by
        cases fuel <;> rfl
      have hstep :
          step (inps (s.index + 0)) (joiner round isClusterhead s.locals s.node (b :: bs)) =
          joinMessage (inps s.index) round isClusterhead s.locals (withRx (b :: bs) s.node) := rfl
      have hloop : joinLoop (fuel + 1) (fun i => inps (s.index + i))
            (joiner round isClusterhead s.locals s.node (b :: bs)) =
          (let m := joinMessage (inps s.index) round isClusterhead s.locals
            (withRx (b :: bs) s.node)
          let r := joinLoop fuel (fun i => inps (s.index + (i + 1))) m.1
          ⟨r.proc, ((decodeMsg b).toList.map Prod.fst) ++ r.handled, m.2 ++ r.frames⟩) := rfl
      dsimp only
      rw [hloop]
      cases hb : valid b with
      | false =>
          have hnone : decodeMsg b = none := by simpa [valid] using hb
          rw [ReceiveLoop.run_leave hb, joinMessage_rejected _ _ _ bs hb]
          dsimp only
          rw [hhead, hnone]
          exact ⟨rfl, rfl, (List.append_nil _).symm⟩
      | true =>
          obtain ⟨⟨m, tail⟩, hm⟩ := Option.isSome_iff_exists.mp hb
          obtain ⟨frames, hmsg, hframes, hindex⟩ :=
            @joinMessage_handled inps isClusterhead round s b bs hb
          rw [hmsg]
          dsimp only
          cases hstop : (joinHandle inps isClusterhead s b).2 with
          | true =>
              rw [ReceiveLoop.run_stop hb hstop, if_pos rfl, hhead, hm]
              exact ⟨rfl, by rw [List.filterMap_cons, hm]; rfl, by rw [hframes, List.append_nil]⟩
          | false =>
              have hshift : (fun i => inps (s.index + (i + 1))) =
                  fun i => inps ((joinHandle inps isClusterhead s b).1.index + i) := by
                ext i : 1
                rw [hindex, Nat.add_assoc, Nat.add_comm i 1]
              obtain ⟨hproc, hhandled, hrest⟩ := ih fuel (Nat.lt_of_succ_lt_succ hfuel)
                (joinHandle inps isClusterhead s b).1
              rw [ReceiveLoop.run_more hb hstop, if_neg Bool.false_ne_true, hshift]
              refine ⟨hproc, ?_, ?_⟩
              · rw [List.filterMap_cons, hm]
                exact congrArg (m :: ·) hhandled
              · rw [← List.append_assoc, ← hframes]
                exact hrest

private theorem joinHandle_answer (s : JoinState) (b : Bytes) :
    (joinHandle inps isClusterhead s b).1.node.state.address = s.node.state.address ∧
      match answerOf s.locals s.node.state b with
      | none => (joinHandle inps isClusterhead s b).2 = false ∧
          (joinHandle inps isClusterhead s b).1.locals = s.locals
      | some accepted =>
          if accepted = 0 then (joinHandle inps isClusterhead s b).2 = true
          else (joinHandle inps isClusterhead s b).2 = false ∧
            (joinHandle inps isClusterhead s b).1.locals.joined = true := by
  rw [joinHandle, answerOf]
  cases hm : decodeMsg b with
  | none => exact ⟨rfl, rfl, rfl⟩
  | some r =>
      obtain ⟨⟨sequence, src, body⟩, tail⟩ := r
      have haddress : (answerFollow (inps s.index) isClusterhead ⟨sequence, src, body⟩
          s.node).1.state.address = s.node.state.address :=
        congrArg Prod.fst (answerFollow_ranking ..)
      dsimp only
      generalize answerFollow (inps s.index) isClusterhead ⟨sequence, src, body⟩ s.node = a
        at haddress ⊢
      cases body with
      | accept accepted follower startSlot relativeSlot remote =>
          dsimp only
          rw [join]
          dsimp only
          rw [haddress]
          by_cases hmine : s.locals.joined = false ∧ s.locals.eligibleFollower = true ∧
              src = s.locals.targetNode ∧ follower = s.node.state.address
          · rw [if_pos hmine, if_pos hmine]
            by_cases hzero : accepted = 0
            · rw [if_neg (not_not.mpr hzero)]
              exact ⟨haddress, by simp [hzero]⟩
            · rw [if_pos hzero]
              refine ⟨?_, by simp [hzero]⟩
              rcases promote_cases ((inps s.index).rand 0)
                  (attach s.locals startSlot relativeSlot a.1) with hp | ⟨-, -, hp⟩
              · rw [hp]
                exact haddress
              · rw [hp]
                exact haddress
          · rw [if_neg hmine, if_neg hmine]
            exact ⟨haddress, rfl, rfl⟩
      | _ => exact ⟨haddress, rfl, rfl⟩

private theorem answerOf_joined {l : JoinLocals} (h : l.joined = true) (s : MultihopState)
    (b : Bytes) : answerOf l s b = none := by
  rw [answerOf]
  split
  · rw [if_neg fun hmine => absurd (hmine.1.symm.trans h) (by simp)]
  · rfl

private theorem answerOf_congr (l : JoinLocals) {s s' : MultihopState}
    (h : s'.address = s.address) : answerOf l s' = answerOf l s := by
  ext b : 1
  rw [answerOf, answerOf, h]

private theorem stops_iff_refused (msgs : List Bytes) (s : JoinState) :
    ReceiveLoop.stops (joinHandle inps isClusterhead) msgs s = true ↔
      Refused s.locals s.node.state msgs := by
  have hjoined (msgs : List Bytes) (s : JoinState) (h : s.locals.joined = true) :
      ReceiveLoop.stops (joinHandle inps isClusterhead) msgs s = false := by
    induction msgs generalizing s with
    | nil => rfl
    | cons b msgs ih =>
        have hb := (@joinHandle_answer inps isClusterhead s b).2
        rw [answerOf_joined h] at hb
        rw [ReceiveLoop.stops, hb.1, Bool.false_or]
        exact ih _ ((congrArg JoinLocals.joined hb.2).trans h)
  induction msgs generalizing s with
  | nil => simp [ReceiveLoop.stops, Refused]
  | cons b msgs ih =>
      obtain ⟨haddress, hb⟩ := @joinHandle_answer inps isClusterhead s b
      rw [ReceiveLoop.stops, Refused]
      cases hanswer : answerOf s.locals s.node.state b with
      | none =>
          rw [hanswer] at hb
          have hrest := ih (joinHandle inps isClusterhead s b).1
          rw [hb.2, Refused, answerOf_congr _ haddress] at hrest
          rwa [List.filterMap_cons_none hanswer, hb.1, Bool.false_or]
      | some accepted =>
          rw [hanswer] at hb
          rw [List.filterMap_cons_some hanswer, List.head?_cons]
          dsimp only at hb
          split_ifs at hb with hzero
          · simp [hb, hzero]
          · simp [hb.1, hjoined msgs _ hb.2, hzero]

private theorem joiningIgnores_iff (l : JoinLocals) (n : Node) (frame : List Bytes) :
    JoiningIgnores inps round isClusterhead l n frame ↔
      (∀ b ∈ frame.dropWhile valid, valid b = false) ∨
        Refused l n.state (frame.takeWhile valid) := by
  have hzero : (fun i => inps (0 + i)) = inps := by
    ext i : 1
    rw [Nat.zero_add]
  have hloop := @joinLoop_eq inps isClusterhead round frame (frame.length + 1) (Nat.lt_succ_self _)
    ⟨0, l, n, []⟩
  have hloop' := @joinLoop_eq inps isClusterhead round (frame.filter valid) (frame.length + 1)
    (Nat.lt_succ_of_le (List.length_filter_le ..)) ⟨0, l, n, []⟩
  rw [hzero] at hloop hloop'
  obtain ⟨hproc, hhandled, hframes⟩ := hloop
  obtain ⟨hproc', hhandled', hframes'⟩ := hloop'
  rw [JoiningIgnores, ← @stops_iff_refused inps isClusterhead _ ⟨0, l, n, []⟩]
  rw [hproc, hproc', hhandled, hhandled']
  constructor
  · rintro ⟨hsame, -⟩
    apply ReceiveLoop.alike_of_handled
    have hall (bs : List Bytes) :
        let r := ReceiveLoop.run valid true (joinHandle inps isClusterhead) bs ⟨0, l, n, []⟩
        (r.handled.filterMap fun b => (decodeMsg b).map Prod.fst).length = r.handled.length := by
      apply List.filterMap_length_eq_length.mpr
      intro b hb
      rw [Option.isSome_map]
      exact ReceiveLoop.handled_ok bs _ b hb
    have hlen := congrArg List.length hsame
    rwa [hall, hall] at hlen
  · intro h
    have hignores : ReceiveLoop.Ignores valid true (joinHandle inps isClusterhead) frame
        ⟨0, l, n, []⟩ := ReceiveLoop.ignores_of_leave frame _ h
    rw [ReceiveLoop.Ignores] at hignores
    rw [hignores] at hframes' ⊢
    refine ⟨rfl, ?_, rfl, rfl⟩
    exact (List.nil_append _).symm.trans (hframes'.symm.trans (hframes.trans (List.nil_append _)))

/-- The rejected messages of a frame make no difference in any of the five loops, unless the
joining phase leaves the frame at one of them and loses a message. -/
theorem all_ignore_iff (l : JoinLocals) (n : Node) (frame : List Bytes) :
    AllIgnore inps round isClusterhead l n frame ↔
      (∀ b ∈ frame.dropWhile valid, valid b = false) ∨
        Refused l n.state (frame.takeWhile valid) := by
  rw [← @joiningIgnores_iff inps isClusterhead round]
  constructor
  · intro h
    exact h.joining
  · intro h
    exact
      { discovery := fun inp l => discoveryPass_ignores frame inp l n
        announcement := fun inp l => announcementPass_ignores frame inp l n
        joining := h
        follower := fun slotNow recvNow passNow before after => by
          rw [← doFollowerRecv_ignores, ← doFollowerRecv_ignores slotNow
            (before ++ ⟨recvNow, .accepted frame, passNow⟩ :: after)]
          -- to strip a frame twice is to strip it once
          simp [strippedPass, List.filter_filter]
        clusterhead := fun inp => doClusterheadRecv_ignores frame inp n }

end Joining

/-- A Follow to the gateway, after one byte that is no message. -/
def hiddenFollow : List Bytes :=
  [[255], Message.toBytes ⟨72, 1, .follow GATEWAY_ADDR 1⟩]

/-- The gateway as it starts a joining phase. -/
def openGateway : Node := prepareClusterhead (setupNode GATEWAY_ADDR)

def openPhase : JoinLocals :=
  startJoining (reading 2600 72 .timedOut) (roundMs openGateway.mac) .reset openGateway.state

theorem follow_hidden :
    let inps : Nat → Input := fun _ => reading 2650 72 .timedOut
    let r := joinLoop 3 inps (joiner 0 true openPhase openGateway hiddenFollow)
    let r' := joinLoop 3 inps (joiner 0 true openPhase openGateway (hiddenFollow.filter valid))
    hiddenFollow.filter valid = [Message.toBytes ⟨72, 1, .follow GATEWAY_ADDR 1⟩] ∧
      r.handled = [] ∧ r'.handled = [⟨72, 1, .follow GATEWAY_ADDR 1⟩] ∧
      r.frames.length = 0 ∧ r'.frames.length = 1 ∧
      ¬ AllIgnore inps 0 true openPhase openGateway hiddenFollow := by
  have hlost : ¬ JoiningIgnores (fun _ => reading 2650 72 .timedOut) 0 true openPhase openGateway
      hiddenFollow := fun h => absurd h.1 (by decide +kernel)
  refine ⟨by decide +kernel, by decide +kernel, by decide +kernel, by decide +kernel,
    by decide +kernel, ?_⟩
  intro h
  exact hlost h.joining

end LoraMultihop.Multihop.Rejected
