/- digest: A network in which every node runs the program, and whose readings it carries. -/

import LoraMultihop.Foundation.Runs
import LoraMultihop.Multihop.MainLoop
import LoraMultihop.Multihop.Network

set_option autoImplicit false
set_option relaxedAutoImplicit false

namespace LoraMultihop.Multihop.Programs

open LoraMultihop.Foundation.ByteMemory (Bytes)
open LoraMultihop.Foundation.Runs (foldl_keeps)
open LoraMultihop.Foundation.Soup
open LoraMultihop.Net.Params
open LoraMultihop.Link
open LoraMultihop.Multihop.Messages
open LoraMultihop.Multihop.State
open LoraMultihop.Multihop.Sending
open LoraMultihop.Multihop.Discovery (Input reading heardState_kept discoveryPass_state)
open LoraMultihop.Multihop.Advertise
open LoraMultihop.Multihop.Api (Op)
open LoraMultihop.Multihop.Relay (isDatagram)
open LoraMultihop.Multihop.Traffic (isAdvertise)
open LoraMultihop.Multihop.Rotation (Apart completes)
open LoraMultihop.Multihop.Network
open LoraMultihop.Multihop.MainLoop

section Addresses

variable {inp : Input} {n : Node}

private theorem startRound_address (round : Nat) (earlier : Bool) (n : Node) :
    (startRound inp round earlier n).node.state.address = n.state.address :=
  congrArg Prod.fst (startRound_attachment round earlier n)

private theorem joinMessage_address (round : Nat) (isClusterhead : Bool) (l : JoinLocals)
    (n : Node) :
    (joinMessage inp round isClusterhead l n).1.node.state.address = n.state.address := by
  have hjoin (m : Message) (n : Node) (durationMs : UInt32) :
      (join inp l m n durationMs).2.2.state.address = n.state.address := by
    rcases join_cases inp l m n durationMs with h | ⟨-, h⟩ |
      ⟨accepted, start, relative, remote, -, -, -, -, -, h⟩
    · rw [h]
    · rw [h]
    · rw [h]
      exact congrArg Prod.fst (promote_attachment (inp.rand 0) (attach l start relative n))
  rw [joinMessage]
  dsimp only
  split
  · rfl
  · next m _ _ =>
    exact (hjoin m _ _).trans (congrArg Prod.fst (answerFollow_attachment inp isClusterhead m
      { n with link := (Queue.getmsg n.link).2 }))

private theorem step_address (inp : Input) (p : Proc) :
    (step inp p).1.node.state.address = p.node.state.address := by
  obtain ⟨control, n⟩ := p
  cases control with
  | idle =>
      rw [step]
      dsimp only
      split_ifs <;> rfl
  | discovery l =>
      rw [step]
      dsimp only
      split_ifs
      · exact startRound_address ..
      · obtain ⟨neighbors, ring, rounds, hkept⟩ := heardState_kept inp n
        dsimp only
        rw [(discoveryPass_state inp l n).trans hkept]
  | announcement round earlier l =>
      rw [step]
      dsimp only
      split_ifs
      · rfl
      · rw [announcementPass_state]
  | joining stage round isClusterhead l =>
      cases stage with
      | head =>
          rw [step]
          dsimp only
          split_ifs
          · exact startRound_address ..
          · rfl
          · rw [joinHead_state]
      | recv => rfl
      | drain => exact joinMessage_address ..
  | done => rfl

private theorem exec_address (op : Op) (n : Node) :
    (op.exec n).state.address = n.state.address := by
  by_cases hop : isAdvertise op = true
  · cases op with
    | doAdvertise inps =>
        apply foldl_keeps (I := fun p : Proc => p.node.state.address = n.state.address)
        · exact fun p inp h => (step_address inp p).trans h
        · rfl
    | _ => exact absurd hop (by simp [isAdvertise])
  · by_cases hset : ∃ p, op = .setClusterheadProbability p
    · obtain ⟨p, rfl⟩ := hset
      rfl
    · have hview : Apart MultihopState.address := fun _ _ _ _ _ _ => rfl
      exact hview.exec (by simpa using hop) (fun p hp => hset ⟨p, hp⟩) n

private theorem action_address (a : Action) (p : Proc) :
    (a.exec p).1.node.state.address = p.node.state.address := by
  cases a with
  | advertise inp => exact step_address inp p
  | again => rfl
  | call op => exact exec_address op p.node

end Addresses

section Calls

/-- The actions of a call: the steps of `do_advertise` one by one, and behind its end the way to the
next. -/
def actionsOf (c : Node × Op) : List Action :=
  match c.2 with
  | .doAdvertise inps => inps.map .advertise ++ if completes c.2 c.1 then [.again] else []
  | op => [.call op]

def actions (calls : List (Node × Op)) : List Action := calls.flatMap actionsOf

def act (as : List Action) (p : Proc) : Proc := as.foldl (fun p a => (a.exec p).1) p

private theorem act_append (as bs : List Action) (p : Proc) :
    act (as ++ bs) p = act bs (act as p) :=
  List.foldl_append

private theorem mem_actions {op : Op} {calls : List (Node × Op)} (h : .call op ∈ actions calls) :
    ∃ n, (n, op) ∈ calls := by
  obtain ⟨⟨n, op'⟩, hc, ha⟩ := List.mem_flatMap.mp h
  refine ⟨n, ?_⟩
  cases op' with
  | doAdvertise inps =>
      rw [actionsOf] at ha
      dsimp only at ha
      split_ifs at ha <;> simp at ha
  | _ =>
      obtain rfl := Action.call.inj (List.mem_singleton.mp ha)
      exact hc

private theorem actionsOf_call {op : Op} (hop : isAdvertise op = false) (n : Node) :
    actionsOf (n, op) = [.call op] := by
  cases op with
  | doAdvertise inps => exact absurd hop (by simp [isAdvertise])
  | _ => rfl

private theorem act_advertise (inps : List Input) (p : Proc) :
    act (inps.map .advertise) p = Advertise.run inps p := List.foldl_map

private theorem act_completed {inps : List Input} {n : Node}
    (hdone : completes (.doAdvertise inps) n = true) :
    act (actionsOf (n, .doAdvertise inps)) ⟨.idle, n⟩ =
      ⟨.idle, (Advertise.run inps ⟨.idle, n⟩).node⟩ := by
  rw [actionsOf]
  dsimp only
  rw [if_pos hdone, act_append, act_advertise]
  rfl

private theorem act_unfinished {inps : List Input} {n : Node}
    (hdone : completes (.doAdvertise inps) n = false) :
    act (actionsOf (n, .doAdvertise inps)) ⟨.idle, n⟩ = Advertise.run inps ⟨.idle, n⟩ := by
  rw [actionsOf]
  dsimp only
  rw [if_neg (by simp [hdone]), List.append_nil, act_advertise]

private theorem act_call (n : Node) (calls : List (Node × Op)) (c : Node × Op) :
    act (actions (calls ++ [c])) ⟨.idle, n⟩ =
      act (actionsOf c) (act (actions calls) ⟨.idle, n⟩) := by
  rw [actions, List.flatMap_append, act_append]
  simp [actions]

end Calls

section Turns

variable {n : Node} {p : Program} {deviceId : Address}

/-- A program that waits in no call, on a node that came from `n` by the actions of its calls. -/
structure Ready (n : Node) (p : Program) : Prop where
  awake : p.waiting = false
  here : act (actions p.calls) ⟨.idle, n⟩ = ⟨.idle, p.node⟩

/-- The actions of its calls take the node to where the program has it. -/
structure InStep (n : Node) (p : Program) : Prop where
  node : (act (actions p.calls) ⟨.idle, n⟩).node = p.node
  ready : p.waiting = false → Ready n p

private theorem Ready.inStep (h : Ready n p) : InStep n p := ⟨by rw [h.here], fun _ => h⟩

private theorem Ready.call (h : Ready n p) (op : Op) (hop : isAdvertise op = false) :
    Ready n (p.call op) where
  awake := h.awake
  here := by
    rw [Program.call, act_call, h.here, actionsOf_call hop]
    rfl

private theorem Ready.sendReading (t : Turn) (h : Ready n p) :
    Ready n (MainLoop.sendReading deviceId t p) := by
  have hcounted : Ready n { p with dataSeq := p.dataSeq + 1 } := ⟨h.awake, h.here⟩
  exact (hcounted.call _ rfl).call _ rfl

private theorem InStep.waits (h : InStep n p) (w : Bool) (hw : w = false → Ready n p) :
    InStep n { p with waiting := w } :=
  ⟨h.node, fun hno => ⟨hno, (hw hno).here⟩⟩

private theorem Ready.callAdvertise (inps : List Input) (h : Ready n p) :
    InStep n (MainLoop.callAdvertise inps p).2 ∧
      ((MainLoop.callAdvertise inps p).1 = true → Ready n (MainLoop.callAdvertise inps p).2) := by
  have hcalled (inps : List Input) : act (actions (p.call (.doAdvertise inps)).calls) ⟨.idle, n⟩ =
      act (actionsOf (p.node, .doAdvertise inps)) ⟨.idle, p.node⟩ := by
    rw [Program.call, act_call, h.here]
  cases inps with
  | nil => exact ⟨h.inStep.waits true (by simp), by simp [MainLoop.callAdvertise]⟩
  | cons inp inps =>
      rw [MainLoop.callAdvertise]
      split_ifs with hstarted
      · -- It has found another slot, and leaves the node without a `do_advertise` under way.
        have hidle : (step inp ⟨.idle, p.node⟩).1.control = .idle := by
          cases hc : (step inp ⟨.idle, p.node⟩).1.control <;> rw [hc] at hstarted <;>
            simp [Control.started] at hstarted
        have hunfinished : completes (.doAdvertise [inp]) p.node = false := by
          change (step inp ⟨.idle, p.node⟩).1.control.isDone = false
          rw [hidle]
          rfl
        have hready : Ready n (p.call (.doAdvertise [inp])) := by
          refine ⟨h.awake, ?_⟩
          rw [hcalled, act_unfinished hunfinished]
          exact congrArg (Proc.mk · _) hidle
        exact ⟨hready.inStep, by simp⟩
      · cases hdone : completes (.doAdvertise (inp :: inps)) p.node with
        | true =>
            have hready : Ready n (p.call (.doAdvertise (inp :: inps))) := by
              refine ⟨h.awake, ?_⟩
              rw [hcalled, act_completed hdone]
              rfl
            dsimp only
            rw [show (Advertise.run (inp :: inps) ⟨.idle, p.node⟩).control.isDone = true from hdone]
            exact ⟨hready.inStep.waits _ fun _ => hready, fun _ => ⟨rfl, hready.here⟩⟩
        | false =>
            dsimp only
            rw [show (Advertise.run (inp :: inps) ⟨.idle, p.node⟩).control.isDone = false
              from hdone]
            refine ⟨⟨?_, by simp⟩, by simp⟩
            rw [hcalled, act_unfinished hdone]
            rfl

private theorem InStep.loop (t : Turn) (h : InStep n p) :
    InStep n (MainLoop.loop deviceId t p) := by
  have hcall (p : Program) (op : Op) (hop : isAdvertise op = false) (_ : reading op = none)
      (h : Ready n p) : Ready n (p.call op) := h.call op hop
  have hrecv (p : Program) (h : Ready n p) : InStep n (followerRecv t p) := by
    have hslot := h.call (.epochAndOffset p.node.state.upstreamAckSlot t.ackNow) rfl
    have hreceived := hslot.call (.doFollowerRecv t.recvNow t.passes) rfl
    rw [followerRecv]
    dsimp only [callEpochAndOffset]
    split_ifs
    · exact hreceived.inStep.waits _ fun _ => hreceived
    · exact hslot.inStep
  have hupstream (p : Program) (h : Ready n p) : InStep n (upstream deviceId t p) := by
    rw [upstream]
    split_ifs
    · apply hrecv
      exact followerSend_induction t hcall (fun p hp => hp.sendReading t) h
    · exact h.inStep
  rw [MainLoop.loop]
  split_ifs with hstop
  · exact h
  · have hawake : p.waiting = false := by simpa using (not_or.mp hstop).1
    have hslot := (h.ready hawake).call (.advertisementSlot t.advNow) rfl
    obtain ⟨hleft, hadvertised⟩ := hslot.callAdvertise t.advertise
    dsimp only
    split_ifs with hfound hdone
    · exact hslot.inStep
    · exact hupstream _ (downstream_induction t hcall (hadvertised hdone))
    · exact hleft

/-- The loop of the program does to its node, turn after turn, what the actions of its calls do one
by one. -/
private theorem run_inStep (deviceId : Address) (radio : Bool) (timeS now : UInt32)
    (turns : List Turn) : InStep (setup deviceId radio timeS now).node
      (MainLoop.run deviceId turns (setup deviceId radio timeS now)) := by
  have hstart : Ready (setup deviceId radio timeS now).node (setup deviceId radio timeS now) :=
    ⟨rfl, rfl⟩
  exact foldl_keeps (fun _ t h => h.loop t) hstart.inStep turns

end Turns

/-- A node as it is set up, and what its clock, its radio and the air give to its program. -/
structure Device where
  deviceId : Address
  radio : Bool
  timeS : UInt32
  now : UInt32
  turns : List Turn

namespace Device

def boot (d : Device) : Program := setup d.deviceId d.radio d.timeS d.now

def program (d : Device) : Program := MainLoop.run d.deviceId d.turns d.boot

private theorem boot_node {d : Device} (h : d.radio = true) :
    ∃ link : Queue.State, link.tx = [] ∧ link.rx = [] ∧
      d.boot.node = if d.deviceId = GATEWAY_ADDR then
          prepareClusterhead (Api.configured (setupParams d.deviceId d.timeS) link
            MultihopState.new)
        else Api.configured (setupParams d.deviceId d.timeS) link MultihopState.new := by
  have hslots : ¬ (setupParams d.deviceId d.timeS).slotCount <
      (setupParams d.deviceId d.timeS).mac.superframeSlotCount.toNat := lt_irrefl _
  have hlink : (Queue.init (setupParams d.deviceId d.timeS).mac
      (setupParams d.deviceId d.timeS).link d.now MainLoop.boot.link).1 = .ok := rfl
  refine ⟨(Queue.init (setupParams d.deviceId d.timeS).mac
      (setupParams d.deviceId d.timeS).link d.now MainLoop.boot.link).2, rfl, rfl, ?_⟩
  rw [boot, setup, if_pos h, Api.init, if_neg hslots]
  dsimp only
  rw [hlink, if_neg (not_not.mpr rfl)]
  rfl

private theorem boot_address {d : Device} (h : d.radio = true) :
    d.boot.node.state.address = d.deviceId := by
  obtain ⟨link, -, -, hnode⟩ := boot_node h
  have haddress := (Api.withAddress_gateway d.deviceId MultihopState.new).1
  rw [hnode]
  split_ifs <;> exact haddress

private theorem boot_silent (d : Device) : d.boot.node.link.tx = [] ∧ d.boot.node.link.rx = [] ∧
    ∀ j, d.boot.node.state.acks j = 0 := by
  cases hradio : d.radio with
  | false =>
      rw [boot, setup, hradio]
      exact ⟨rfl, rfl, fun _ => rfl⟩
  | true =>
      obtain ⟨link, htx, hrx, hnode⟩ := boot_node hradio
      rw [hnode]
      split_ifs
      · exact ⟨htx, hrx, fun _ => ite_self _⟩
      · exact ⟨htx, hrx, fun _ => rfl⟩

private theorem program_readings {d : Device} {n : Node} {stamp : UInt32} {iter : DatagramIterator}
    (h : (n, .sendDatagram stamp iter) ∈ d.program.calls) :
    d.radio = true ∧ ∃ k, iter = numbered d.deviceId k := by
  obtain ⟨deviceId, radio, timeS, now, turns⟩ := d
  have hiter : iter ∈ readings (Device.mk deviceId radio timeS now turns).program.calls :=
    List.mem_filterMap.mpr ⟨_, h, rfl⟩
  cases radio with
  | false =>
      have hnone : (Device.mk deviceId false timeS now turns).program =
          setup deviceId false timeS now := run_uninitialized turns rfl
      rw [hnone] at hiter
      exact absurd hiter List.not_mem_nil
  | true =>
      obtain ⟨k, -, hreadings⟩ := (Counted.run turns (setup_counted deviceId timeS now)).counted
      have hmem : iter ∈ (List.range k).map (numbered deviceId) := hreadings ▸ hiter
      obtain ⟨i, -, rfl⟩ := List.mem_map.mp hmem
      exact ⟨rfl, i, rfl⟩

end Device

section Networks

variable {ι : Type*} {devices : ι → Device}

def booted (devices : ι → Device) : Network ι Proc Bytes :=
  ⟨fun i => ⟨.idle, (devices i).boot.node⟩, []⟩

private theorem booted_silent : Silent (booted devices) where
  held i b h := by
    obtain ⟨htx, hrx, -⟩ := (devices i).boot_silent
    change b ∈ (devices i).boot.node.link.tx ∨ b ∈ (devices i).boot.node.link.rx at h
    rw [htx, hrx] at h
    exact h.elim List.not_mem_nil List.not_mem_nil
  air := rfl

private theorem booted_unacked : Unacked (booted devices) := fun i => (devices i).boot_silent.2.2

variable [DecidableEq ι] {Linked : ι → ι → Prop} {schedule : List ι}

/-- What the nodes do under a schedule when each runs its program. -/
def programSteps (devices : ι → Device) (schedule : List ι) : List (ι × Action) :=
  weave schedule fun i => actions (devices i).program.calls

private theorem mem_programSteps {i : ι} {op : Op}
    (h : (i, .call op) ∈ programSteps devices schedule) :
    ∃ n, (n, op) ∈ (devices i).program.calls :=
  mem_actions ((stepsOf_weave schedule _ i).subset (mem_stepsOf.mpr h))

private theorem booted_address {i : ι} (h : (devices i).radio = true) (steps : List (ι × Action)) :
    (((booted devices).run machine steps).procs i).node.state.address = (devices i).deviceId := by
  rw [run_procs]
  apply foldl_keeps (I := fun p : Proc => p.node.state.address = (devices i).deviceId)
  · exact fun p a hp => (action_address a p).trans hp
  · exact Device.boot_address h

/-- A node that has made the calls of its program is where the program has it. -/
theorem programSteps_node {i : ι} (h : stepsOf i (programSteps devices schedule) =
    actions (devices i).program.calls) :
    (((booted devices).run machine (programSteps devices schedule)).procs i).node =
      (devices i).program.node := by
  rw [run_procs, h]
  exact (run_inStep (devices i).deviceId (devices i).radio (devices i).timeS (devices i).now
    (devices i).turns).node

/-- What a datagram of the network is: a reading that the program of a node has handed to
`send_datagram` in the run. -/
def IsReading (devices : ι → Device) (steps : List (ι × Action)) (b : Bytes) : Prop :=
  ∃ i k stamp,
    (i, .call (.sendDatagram stamp (numbered (devices i).deviceId k))) ∈ steps ∧
      b = Message.toBytes ⟨stamp, (devices i).deviceId, .datagram
        (UInt16.ofNat (text (devices i).deviceId (UInt32.ofNat k)).length) 1 0⟩ ++
          text (devices i).deviceId (UInt32.ofNat k)

private theorem brought_isReading {b : Bytes}
    (h : datagrams.Brought machine (programSteps devices schedule) (booted devices) b) :
    IsReading devices (programSteps devices schedule) b := by
  obtain ⟨before, i, a, after, heq, stamp, iter, datagram, fragment, iter', rfl, hnext, -, hb⟩ := h
  have hmem : (i, .call (.sendDatagram stamp iter)) ∈ programSteps devices schedule := by
    rw [heq]
    exact List.mem_append_right _ List.mem_cons_self
  obtain ⟨n, hcall⟩ := mem_programSteps hmem
  obtain ⟨hradio, k, rfl⟩ := Device.program_readings hcall
  obtain ⟨iter'', hsingle, -⟩ := numbered_single (devices i).deviceId k
  rw [numbered_buf] at hsingle
  obtain ⟨rfl, rfl, rfl⟩ : _ = datagram ∧ _ = fragment ∧ _ = iter' := by
    simpa using hsingle.symm.trans hnext
  refine ⟨i, k, stamp, hmem, ?_⟩
  rw [hb, booted_address hradio]

/-- In a network of nodes that run the program, whatever the air does to their frames and however
they take turns: every datagram that a node holds or that is on the air is a whole reading of the
node whose address it bears, and every ack that a node has is the stamp of a reading. -/
theorem network_carries_readings
    (hallowed : Allowed machine Linked (programSteps devices schedule) (booted devices)) :
    let steps := programSteps devices schedule
    let c := (booted devices).run machine steps
    (∀ b, isDatagram b = true → ((∃ i, Holds (c.procs i).node b) ∨ ∃ p ∈ c.air, p.2 = b) →
      IsReading devices steps b) ∧
    ∀ i j, (c.procs i).node.state.acks j ≠ 0 →
      ∃ l k, (l, .call (.sendDatagram ((c.procs i).node.state.acks j)
        (numbered (devices l).deviceId k))) ∈ steps := by
  intro steps c
  refine ⟨fun b hdatagram hpresent => ?_, fun i j hack => ?_⟩
  · have hend : datagrams.Present c b := by
      rcases hpresent with ⟨i, hi⟩ | ⟨p, hp, hpb⟩
      · exact Or.inl ⟨i, hdatagram, hi⟩
      · exact Or.inr ⟨p, hp, hdatagram, hpb⟩
    rcases datagrams_conserved.run hallowed hend with (⟨i, -, hi⟩ | ⟨p, hp, -⟩) | hbrought
    · exact absurd hi (booted_silent.held i b)
    · exact absurd hp List.not_mem_nil
    · exact brought_isReading hbrought
  · have hend : acks.Present c ((c.procs i).node.state.acks j) :=
      Or.inl ⟨i, hack, Or.inl ⟨j, rfl⟩⟩
    rcases acks_conserved.run hallowed hend with (⟨l, -, hl⟩ | ⟨p, hp, -⟩) | hbrought
    · rcases hl with ⟨m, hm⟩ | ⟨b, hb, -⟩
      · exact absurd (hm.symm.trans (booted_unacked l m)) hack
      · exact absurd hb (booted_silent.held l b)
    · exact absurd hp List.not_mem_nil
    · obtain ⟨before, l, a, after, heq, iter, rfl, -⟩ := hbrought
      have hmem : (l, .call (.sendDatagram ((c.procs i).node.state.acks j) iter)) ∈ steps := by
        rw [show steps = _ from heq]
        exact List.mem_append_right _ List.mem_cons_self
      obtain ⟨n, hcall⟩ := mem_programSteps hmem
      obtain ⟨-, k, rfl⟩ := Device.program_readings hcall
      exact ⟨l, k, hmem⟩

end Networks

section Pair

/-- A turn whose `do_advertise` takes the inputs; its calls are made in the slots 14 and 16. -/
def pairTurn (advertise : List Input) : Turn where
  advNow := 60
  advertise := advertise
  recvs _ := (72, ⟨72, 72, .timedOut⟩)
  chNow := 72
  send := Relay.forwardingRun.send
  myNow := 72
  stamp := 119
  slotNow := 119
  flushNow := 119
  sent := true
  ackNow := 119
  recvNow := 119
  passes := []

/-- The gateway announces itself and its cluster and accepts the node that asks to follow. -/
def gatewayInputs : List Input :=
  [reading 1000 72 .timedOut, reading 1100 72 .timedOut, reading 2201 72 .timedOut,
    reading 2300 72 .timedOut, reading 2502 72 .timedOut, reading 2600 72 .timedOut,
    reading 2650 72 (Joining.frameOf 1 (.follow GATEWAY_ADDR 1)), reading 2650 72 .timedOut]

/-- The node hears the gateway, joins it, and comes to the end of the rounds. -/
def nodeInputs : List Input :=
  [reading 1000 72 .timedOut,
    reading 1100 72 (Joining.frameOf GATEWAY_ADDR (.heartbeat GATEWAY_RING)),
    reading 2201 72 .timedOut,
    reading 2300 72 (Joining.frameOf GATEWAY_ADDR (.openCluster 0 GATEWAY_ADDR RingList.empty)),
    reading 2502 72 .timedOut, reading 2600 72 .timedOut,
    reading 2700 72 (Joining.frameOf GATEWAY_ADDR (.accept 1 1 15 1 72)),
    reading 2700 72 .timedOut, reading 2700 72 .timedOut, reading 2803 72 .timedOut,
    reading 3200 72 .timedOut, reading 3600 72 .timedOut, reading 4000 72 .timedOut,
    reading 4400 72 .timedOut]

/-- The gateway, at `true`, and the node with the address 1. -/
def pairDevices (i : Bool) : Device :=
  if i then ⟨GATEWAY_ADDR, true, 60, 60, [pairTurn gatewayInputs]⟩
  else ⟨1, true, 60, 60, [pairTurn nodeInputs]⟩

/-- The steps up to the `do_follower_send` of the node. -/
def pairSchedule : List Bool :=
  List.replicate 5 true ++ List.replicate 7 false ++ List.replicate 4 true ++
    List.replicate 24 false

private theorem pair_allowed :
    Allowed machine (fun i j => i ≠ j) (programSteps pairDevices pairSchedule)
      (booted pairDevices) := by
  decide +kernel

theorem first_reading_on_air :
    IsReading pairDevices (programSteps pairDevices pairSchedule)
      (Message.toBytes ⟨119, 1, .datagram 12 1 0⟩ ++ text 1 0) :=
  (network_carries_readings pair_allowed).1 _ (by decide +kernel) (Or.inr (by decide +kernel))

end Pair

end LoraMultihop.Multihop.Programs
