/- digest: How far the time sync of the joining rounds can take the clocks of a network. -/

import LoraMultihop.Multihop.Joining
import LoraMultihop.Multihop.Network
import LoraMultihop.Multihop.TimeSync

set_option autoImplicit false
set_option relaxedAutoImplicit false

namespace LoraMultihop.Multihop.Skew

open LoraMultihop.Foundation.ByteMemory (Bytes)
open LoraMultihop.Foundation.Soup
open LoraMultihop.Net.Params
open LoraMultihop.Link
open LoraMultihop.Multihop.Messages
open LoraMultihop.Multihop.Sending
open LoraMultihop.Multihop.Discovery (Input reading setupNode)
open LoraMultihop.Multihop.Advertise
open LoraMultihop.Multihop.Api (Op)
open LoraMultihop.Multihop.Relay (isDatagram)
open LoraMultihop.Multihop.Traffic (Makes Moves Own Said asks hears next_type)
open LoraMultihop.Multihop.Network
open LoraMultihop.Multihop.TimeSync (drift joinClock syncTime)

/-- A node, the seconds that its clock is ahead of the true time, and the time of its last step. -/
structure Party where
  proc : Proc
  ahead : Int
  time : Nat

/-- A step, the true times at which it reads the clock and at which it is over, and the messages
that it hears with the times when they were sent. -/
structure Timed where
  action : Action
  reading : Nat → Nat
  time : Nat
  messages : List (Nat × Bytes)

/-- The clock after a step: a message of the joining loop can set it. -/
def clockAfter (inp : Input) (p : Proc) (clock : UInt32) : UInt32 :=
  match p.control with
  | .joining .drain _ isClusterhead l =>
      let (msg, link) := Queue.getmsg p.node.link
      match msg.bind decodeMsg with
      | none => clock
      | some (m, _) =>
          let (n, _) := answerFollow inp isClusterhead m { p.node with link := link }
          joinClock l m n clock
  | _ => clock

def Timed.ahead (a : Timed) (p : Party) : Int :=
  match a.action with
  | .advertise inp => (clockAfter inp p.proc (inp.now 0)).toNat - a.reading 0
  | _ => p.ahead

/-- A step reads the clock of its node while it lasts, a call of `accept` too, and it hears what was
sent before it is over. Clocks count whole seconds and do not wrap. -/
def Timed.Enabled (a : Timed) (p : Party) : Prop :=
  a.action.Enabled p.proc ∧ p.time ≤ a.time ∧
    a.action.heard = a.messages.map Prod.snd ∧ (∀ m ∈ a.messages, m.1 ≤ a.time) ∧
      match a.action with
      | .advertise inp => ∀ i, p.time ≤ a.reading i ∧ a.reading i ≤ a.time ∧
          ((inp.now i).toNat : Int) = a.reading i + p.ahead
      | .call (.accept _ remote _) => p.time ≤ a.reading 0 ∧ a.reading 0 ≤ a.time ∧
          (remote.toNat : Int) = a.reading 0 + p.ahead
      | _ => True

/-- The network of the layer with its clocks. -/
def machine : Machine Party Timed (Nat × Bytes) where
  step a p := (⟨(a.action.exec p.proc).1, a.ahead p, a.time⟩,
    (a.action.exec p.proc).2.map fun b => (a.time, b))
  heard a := a.messages
  enabled := Timed.Enabled

/-- An Accept tells no time further ahead of `time` than `bound`. -/
def Within (bound : Int) (time : Nat) (b : Bytes) : Prop :=
  ∀ m tail accepted follower start relative remote, decodeMsg b = some (m, tail) →
    m.body = .accept accepted follower start relative remote → (remote.toNat : Int) ≤ time + bound

section Messages

variable {bound : Int} {time later : Nat} {n : Node} {b : Bytes}

private theorem Within.mono (h : Within bound time b) (hle : time ≤ later) :
    Within bound later b := by
  intro m tail accepted follower start relative remote hdecode hbody
  have hremote := h m tail accepted follower start relative remote hdecode hbody
  omega

private theorem Within.of_type {m : Message} (tail : Bytes) (h : m.body.type ≠ .accept) :
    Within bound time (m.toBytes ++ tail) := by
  intro m' tail' accepted follower start relative remote hdecode hbody
  have heq := congrArg Prod.fst (eq_of_decodeMsg hdecode)
  dsimp only at heq
  rw [← heq, hbody] at h
  exact absurd rfl h

private theorem Within.of_isDatagram (h : isDatagram b = true) : Within bound time b := by
  intro m tail accepted follower start relative remote hdecode hbody
  obtain ⟨sequence, src, body⟩ := m
  dsimp only at hbody
  rw [isDatagram, hdecode, hbody] at h
  exact absurd h (by simp)

private theorem within_makes {op : Op} (hop : asks op .accept = false)
    (hlen : ∀ b ∈ hears op, b.length ≤ 255) (h : Makes n op b) : Within bound time b := by
  cases h with
  | own op stamp body hasks =>
      rw [← List.append_nil (Message.toBytes _)]
      apply Within.of_type
      intro htype
      dsimp only at htype
      rw [htype, hop] at hasks
      exact absurd hasks (by simp)
  | acks op stamp start count hcount => exact Within.of_type _ (by simp [Body.type])
  | datagram stamp iter datagram fragment iter' hnext hok =>
      apply Within.of_type
      dsimp only
      rw [next_type hnext]
      simp
  | forward inp b hb hdatagram =>
      have htake : (UInt8.ofNat b.length).toNat = b.length := by
        rw [UInt8.toNat_ofNat']
        exact Nat.mod_eq_of_lt (Nat.lt_succ_of_le (hlen b hb))
      rw [htake, List.take_length]
      exact Within.of_isDatagram hdatagram

private theorem Within.acceptMessage {remote : UInt32} (follower : Address) (stamp : UInt32)
    (n : Node) (hremote : (remote.toNat : Int) ≤ time + bound) :
    Within bound time (acceptMessage follower remote stamp n).toBytes := by
  intro m tail accepted follower' start relative remote' hdecode hbody
  rw [← List.append_nil (Message.toBytes _)] at hdecode
  have heq := congrArg (fun r => r.1.body) (eq_of_decodeMsg hdecode)
  rw [hbody, Sending.acceptMessage] at heq
  dsimp only at heq
  split at heq
  · obtain ⟨-, -, -, -, rfl⟩ := Body.accept.inj heq
    exact hremote
  · obtain ⟨-, -, -, -, rfl⟩ := Body.accept.inj heq
    exact hremote

private theorem within_own {inp : Input} (h : Own inp n b)
    (hnow : ((inp.now 0).toNat : Int) ≤ time + bound) : Within bound time b := by
  obtain ⟨stamp, body, hsaid, rfl⟩ := h
  intro m tail accepted follower start relative remote hdecode hbody
  rw [← List.append_nil (Message.toBytes _)] at hdecode
  have heq := congrArg (fun r => r.1.body) (eq_of_decodeMsg hdecode)
  dsimp only at heq
  rw [← heq, hbody] at hsaid
  rw [show remote = inp.now 0 from hsaid]
  exact hnow

end Messages

section Steps

variable {bound : Int} {p : Party} {a : Timed}

private theorem syncTime_cases (localTime remote : UInt32) :
    syncTime localTime remote = remote ∨ syncTime localTime remote = localTime := by
  rw [syncTime]
  split_ifs
  · exact Or.inl rfl
  · exact Or.inr rfl

private theorem joinClock_cases (l : JoinLocals) (m : Message) (n : Node) (clock : UInt32) :
    joinClock l m n clock = clock ∨ ∃ accepted follower start relative,
      m.body = .accept accepted follower start relative (joinClock l m n clock) := by
  obtain ⟨sequence, src, body⟩ := m
  cases body with
  | accept accepted follower start relative remote =>
      rw [joinClock]
      dsimp only
      split_ifs
      · rcases syncTime_cases clock remote with h | h
        · exact Or.inr ⟨accepted, follower, start, relative, by rw [h]⟩
        · exact Or.inl h
      · exact Or.inl rfl
  | _ => exact Or.inl rfl

private theorem clockAfter_cases (inp : Input) (p : Proc) (clock : UInt32) :
    clockAfter inp p clock = clock ∨
      ∃ b ∈ p.node.link.rx, ∃ m tail accepted follower start relative,
        decodeMsg b = some (m, tail) ∧
          m.body = .accept accepted follower start relative (clockAfter inp p clock) := by
  rw [clockAfter]
  split
  · next round isClusterhead l _ =>
    cases hrx : p.node.link.rx with
    | nil =>
        rw [Queue.getmsg, hrx]
        exact Or.inl rfl
    | cons b rest =>
        rw [Queue.getmsg, hrx]
        dsimp only [Option.bind_some]
        cases hdecode : decodeMsg b with
        | none => exact Or.inl rfl
        | some r =>
            obtain ⟨m, tail⟩ := r
            refine (joinClock_cases l m _ clock).imp_right ?_
            rintro ⟨accepted, follower, start, relative, hbody⟩
            exact ⟨b, List.mem_cons_self, m, tail, accepted, follower, start, relative, hdecode,
              hbody⟩
  · exact Or.inl rfl

private theorem ahead_le (ha : a.Enabled p) (hahead : p.ahead ≤ bound)
    (hheld : ∀ b, Holds p.proc.node b → Within bound p.time b) : a.ahead p ≤ bound := by
  obtain ⟨action, reading, time, messages⟩ := a
  obtain ⟨-, -, -, -, hread⟩ := ha
  cases action with
  | advertise inp =>
      obtain ⟨hfrom, -, hnow⟩ := hread 0
      rw [Timed.ahead]
      dsimp only at hfrom hnow ⊢
      rcases clockAfter_cases inp p.proc (inp.now 0) with h |
        ⟨b, hb, m, tail, accepted, follower, start, relative, hdecode, hbody⟩
      · rw [h]
        omega
      · have hremote := hheld b (Or.inr hb) m tail accepted follower start relative _ hdecode hbody
        omega
  | again => exact hahead
  | call op => exact hahead

private theorem exec_within (ha : a.Enabled p) (hahead : p.ahead ≤ bound) {b : Bytes}
    (hb : Holds (a.action.exec p.proc).1.node b ∨ b ∈ (a.action.exec p.proc).2) :
    Holds p.proc.node b ∨ Within bound a.time b ∨ b ∈ a.action.heard := by
  obtain ⟨action, reading, time, messages⟩ := a
  obtain ⟨henabled, -, -, -, hread⟩ := ha
  cases action with
  | advertise inp =>
      refine (exec_holds henabled hb).imp_right (Or.imp_left fun hown => within_own hown ?_)
      obtain ⟨-, hover, hnow⟩ := hread 0
      dsimp only at hover hnow ⊢
      omega
  | again => exact (exec_holds henabled hb).imp_right (Or.imp_left False.elim)
  | call op =>
      by_cases haccept : asks op .accept = true
      · obtain ⟨follower, remote, stamp, rfl⟩ : ∃ follower remote stamp,
            op = .accept follower remote stamp := by
          cases op with
          | accept follower remote stamp => exact ⟨follower, remote, stamp, rfl⟩
          | _ => exact absurd haccept (by simp [asks])
        obtain ⟨-, hover, hnow⟩ := hread
        have hmoves : Moves (Within bound time) (fun _ => False)
            { p.proc.node with link := { p.proc.node.link with code := p.proc.node.link.code } }
            (accept follower remote stamp p.proc.node).2 [] := by
          apply Moves.accept
          apply Within.acceptMessage
          dsimp only at hover hnow
          omega
        exact (moves_holds hmoves hb).imp_right fun h => Or.inl (h.resolve_right id)
      · refine (exec_holds henabled hb).imp_right (Or.imp_left fun hmakes => ?_)
        exact within_makes (by simpa using haccept) henabled.2 hmakes

end Steps

section Networks

variable {ι : Type*} {Linked : ι → ι → Prop}

/-- Every clock keeps the bound, and so does every time that an Accept tells. -/
def skew (bound : Int) : Claims ι Party (Nat × Bytes) where
  known _ p _ := p.ahead ≤ bound ∧ ∀ b, Holds p.proc.node b → Within bound p.time b
  sound _ m := Within bound m.1 m.2
  vouched _ _ _ := True

private theorem skew_kept (bound : Int) : (skew bound).Kept machine Linked where
  mono _ _ _ _ h := h
  step i p a air hknown hsound _ ha hheard := by
    obtain ⟨hahead, hheld⟩ := hknown
    have hafter (b : Bytes)
        (hb : Holds (a.action.exec p.proc).1.node b ∨ b ∈ (a.action.exec p.proc).2) :
        Within bound a.time b := by
      rcases exec_within ha hahead hb with hold | hwithin | hnew
      · exact (hheld b hold).mono ha.2.1
      · exact hwithin
      · rw [ha.2.2.1] at hnew
        obtain ⟨m, hm, rfl⟩ := List.mem_map.mp hnew
        obtain ⟨j, hj, -⟩ := hheard m hm
        exact (hsound (j, m) hj).mono (ha.2.2.2.1 m hm)
    refine ⟨⟨ahead_le ha hahead hheld, fun b hb => hafter b (Or.inl hb)⟩, fun _ _ => trivial, ?_⟩
    intro m hm
    obtain ⟨b, hb, rfl⟩ := List.mem_map.mp hm
    exact ⟨hafter b (Or.inr hb), trivial, fun _ _ _ => trivial⟩

/-- From a start without messages, whatever the nodes call and whatever is heard or lost, no clock
is ever further ahead of the true time than the fastest one was at the start. -/
theorem never_ahead [DecidableEq ι] {bound : Int} {start c : Network ι Party (Nat × Bytes)}
    (hair : start.air = []) (hsilent : ∀ i b, ¬ Holds (start.procs i).proc.node b)
    (hbound : ∀ i, (start.procs i).ahead ≤ bound) (h : Reachable machine Linked start c) (i : ι) :
    (c.procs i).ahead ≤ bound := by
  have hstart : (skew bound).Holds start := by
    refine ⟨fun i => ⟨hbound i, fun b hb => absurd hb (hsilent i b)⟩, ?_, fun _ _ _ => trivial⟩
    intro p hp
    rw [hair] at hp
    exact absurd hp List.not_mem_nil
  exact (((skew_kept bound).reachable hstart h).1 i).1

end Networks

section Pair

/-- A step at one instant of a node whose clock then shows `clock`. -/
def instant (time : Nat) (millis clock : UInt32) (messages : List (Nat × Bytes)) : Timed where
  action := .advertise (reading millis clock
    (if messages = [] then .timedOut else .accepted (messages.map Prod.snd)))
  reading _ := time
  time := time
  messages := messages

private theorem instant_enabled {p : Party} {time : Nat} {millis clock : UInt32}
    {messages : List (Nat × Bytes)} (hfrom : p.time ≤ time) (hsent : ∀ m ∈ messages, m.1 ≤ time)
    (hclock : (clock.toNat : Int) = time + p.ahead) :
    (instant time millis clock messages).Enabled p := by
  refine ⟨trivial, hfrom, ?_, hsent, fun _ => ⟨hfrom, le_refl _, hclock⟩⟩
  change (reading millis clock (if messages = [] then .timedOut else
    .accepted (messages.map Prod.snd))).heard = _
  split_ifs with h
  · rw [h]
    rfl
  · rfl

def gatewayBefore : List Input :=
  [reading 1000 72 .timedOut, reading 2201 72 .timedOut, reading 2300 72 .timedOut,
    reading 2502 72 .timedOut]

def nodeBefore : List Input :=
  [reading 1000 72 .timedOut, reading 2201 72 .timedOut,
    reading 2400 72 (Joining.frameOf GATEWAY_ADDR (.openCluster 0 GATEWAY_ADDR RingList.empty)),
    reading 2502 72 .timedOut]

/-- The gateway, 5 s ahead, and a node 1 s ahead, where the joining loop begins. -/
def pair : Network Bool Party (Nat × Bytes) where
  procs i :=
    if i then ⟨Advertise.run gatewayBefore ⟨.idle, setupNode GATEWAY_ADDR⟩, 5, 70⟩
    else
      ⟨Advertise.run nodeBefore ⟨.idle,
        { setupNode 1 with state := { (setupNode 1).state with ring := 1 } }⟩, 1, 70⟩
  air := []

def followBytes : Bytes := Message.toBytes ⟨71, 1, .follow GATEWAY_ADDR 1⟩

def acceptBytes : Bytes := Message.toBytes ⟨75, GATEWAY_ADDR, .accept 1 1 15 1 75⟩

/-- The node asks to follow, the gateway accepts, and the node hears that a second later. -/
def joining : List (Bool × Timed) :=
  [(false, instant 70 2600 71 []), (true, instant 70 2600 75 []),
    (true, instant 70 2650 75 [(70, followBytes)]), (true, instant 70 2650 75 []),
    (false, instant 71 2700 72 [(70, acceptBytes)]), (false, instant 71 2700 72 [])]

private theorem pair_silent (i b) : ¬ Holds (pair.procs i).proc.node b := by
  have hempty : (pair.procs i).proc.node.link.tx = [] ∧ (pair.procs i).proc.node.link.rx = [] := by
    cases i <;> decide +kernel
  rw [Holds, hempty.1, hempty.2]
  simp

private theorem joining_allowed : Allowed machine (fun i j => i ≠ j) joining pair := by
  refine ⟨⟨instant_enabled (by decide +kernel) (by decide) (by decide +kernel), by decide⟩,
    ⟨instant_enabled (by decide +kernel) (by decide) (by decide +kernel), by decide⟩,
    ⟨instant_enabled (by decide +kernel) (by decide) (by decide +kernel), by decide +kernel⟩,
    ⟨instant_enabled (by decide +kernel) (by decide) (by decide +kernel), by decide⟩,
    ⟨instant_enabled (by decide +kernel) (by decide) (by decide +kernel), by decide +kernel⟩,
    ⟨instant_enabled (by decide +kernel) (by decide) (by decide +kernel), by decide⟩, trivial⟩

theorem joined_not_ahead :
    let c := pair.run machine joining
    (c.procs false).ahead = 4 ∧ ∀ i, (c.procs i).ahead ≤ 5 := by
  intro c
  exact ⟨by decide +kernel, never_ahead rfl pair_silent (by decide) (reachable_run joining_allowed)⟩

end Pair

end LoraMultihop.Multihop.Skew
