/- digest: The program of a node: in which slot, on which code and in which role it sends. -/

import LoraMultihop.Multihop.Fragments
import LoraMultihop.Multihop.Joining
import LoraMultihop.Multihop.Rotation

set_option autoImplicit false
set_option relaxedAutoImplicit false

namespace LoraMultihop.Multihop.MainLoop

open LoraMultihop.Foundation.ByteMemory (Bytes)
open LoraMultihop.Net.Params
open LoraMultihop.Link
open LoraMultihop.Link.Layer (hashCdmaCode)
open LoraMultihop.Multihop.Messages
open LoraMultihop.Multihop.State
open LoraMultihop.Multihop.Sending
open LoraMultihop.Multihop.Slots
open LoraMultihop.Multihop.Discovery
open LoraMultihop.Multihop.Advertise
open LoraMultihop.Multihop.Api
open LoraMultihop.Multihop.Traffic

/-- `sizeof(Datagram)`. -/
def DATAGRAM_SZ : Nat := 4

/-- The digits that `%u` and `%lu` print. -/
def decimal (n : Nat) : Bytes :=
  if n = 0 then [48] else (Nat.digits 10 n).reverse.map fun d => UInt8.ofNat (48 + d)

def text (deviceId : Address) (dataSeq : UInt32) : Bytes :=
  [68, 65, 84, 65, 58] ++ decimal deviceId.toNat ++ [58, 115, 101, 113, 61] ++
    decimal dataSeq.toNat

/-- The text of a reading as `snprintf` leaves it in the 64 bytes of `payload`. -/
def payload (deviceId : Address) (dataSeq : UInt32) : Bytes := (text deviceId dataSeq).take 63

/-- The variables of the program, and the calls made so far, each with the node it was made on. The
program is `waiting` in a call that has not returned. -/
structure Program where
  node : Node
  dataSeq : UInt32
  calls : List (Node × Op)
  waiting : Bool

/-- What the clock, the radio and `rand()` give to one turn of `loop`. -/
structure Turn where
  advNow : UInt32
  advertise : List Input
  recvs : UInt8 → UInt32 × RecvInput
  chNow : UInt32
  send : SendInput
  myNow : UInt32
  stamp : UInt32
  slotNow : UInt32
  flushNow : UInt32
  sent : Bool
  ackNow : UInt32
  recvNow : UInt32
  passes : List WaitPass

def Program.call (op : Op) (p : Program) : Program :=
  { p with node := op.exec p.node, calls := p.calls ++ [(p.node, op)] }

/-- The program goes on to sleep until the slot it asked for. -/
def sleeps : RC → Bool
  | .ok | .notInWindow => true
  | _ => false

def callEpochAndOffset (slot : UInt8) (now : UInt32) (p : Program) : Bool × Program :=
  (sleeps (Api.epochAndOffset slot now p.node).1, p.call (.epochAndOffset slot now))

/-- The flag is set where `do_advertise` returns `Ok`. Where it returns `InvalidSlot` it has read
the clock once. -/
def callAdvertise (inps : List Input) (p : Program) : Bool × Program :=
  match inps with
  | [] => (false, { p with waiting := true })
  | inp :: inps =>
      if (step inp ⟨.idle, p.node⟩).1.control.started = false then
        (false, p.call (.doAdvertise [inp]))
      else
        let done := (Advertise.run (inp :: inps) ⟨.idle, p.node⟩).control.isDone
        (done, { p.call (.doAdvertise (inp :: inps)) with waiting := !done })

/-- The loop of phase 2 over the slots of the followers, those between the first and the last of the
downstream window. -/
def receiveSlots (t : Turn) : List UInt8 → Program → Program
  | [], p => p
  | slot :: slots, p =>
      let (now, inp) := t.recvs slot
      let (found, p) := callEpochAndOffset (p.node.state.downstreamStartSlot + slot) now p
      if found then receiveSlots t slots (p.call (.doClusterheadRecv inp)) else p

/-- The acks of a clusterhead, in the last slot of its window. -/
def sendAcksSlot (t : Turn) (p : Program) : Program :=
  let (found, p) :=
    callEpochAndOffset (p.node.state.downstreamStartSlot + VTDMA_WINDOW - 1) t.chNow p
  if found then p.call (.doClusterheadSend t.send) else p

def downstream (t : Turn) (p : Program) : Program :=
  if p.node.state.actsAsClusterhead then sendAcksSlot t (receiveSlots t [1, 2, 3, 4, 5] p) else p

def sendReading (deviceId : Address) (t : Turn) (p : Program) : Program :=
  let iter := DatagramIterator.create (payload deviceId p.dataSeq)
    (UInt16.ofNat (p.node.link.msgMaxBytes - HEADER_SZ - DATAGRAM_SZ))
  let p := { p with dataSeq := p.dataSeq + 1 }.call (.sendDatagram t.stamp iter)
  p.call (.doFollowerSend t.slotNow t.flushNow t.sent)

def followerSend (deviceId : Address) (t : Turn) (p : Program) : Program :=
  let found := sleeps (Api.mySlotTime t.myNow p.node).1
  let p := p.call (.mySlotTime t.myNow)
  if found then sendReading deviceId t p else p

def followerRecv (t : Turn) (p : Program) : Program :=
  let (found, p) := callEpochAndOffset p.node.state.upstreamAckSlot t.ackNow p
  if found then
    { p.call (.doFollowerRecv t.recvNow t.passes) with
      waiting := decide ((Slots.doFollowerRecv t.recvNow t.passes p.node).1 = none) }
  else p

def upstream (deviceId : Address) (t : Turn) (p : Program) : Program :=
  if p.node.state.actsAsFollower && decide (p.node.state.clusterheadAddr ≠ UNKNOWN_ADDR) then
    followerRecv t (followerSend deviceId t p)
  else p

def loop (deviceId : Address) (t : Turn) (p : Program) : Program :=
  if p.waiting = true ∨ p.node.state.initialized = false then p
  else
    let found := sleeps (Api.advertisementSlot t.advNow p.node).1
    let p := p.call (.advertisementSlot t.advNow)
    if found = false then p
    else
      let (advertised, p) := callAdvertise t.advertise p
      if advertised then upstream deviceId t (downstream t p) else p

def boot : Node where
  state := MultihopState.new
  link := ⟨false, ⟨0, 0, 0, 0, 0⟩, ⟨0, 0⟩, 0, 0, 0, [], []⟩

def setupParams (deviceId : Address) (timeS : UInt32) : InitParams where
  node := ⟨deviceId, timeS⟩
  mac := setupMac
  link := setupLink
  acks := fun _ => 0
  slots := fun _ => 0
  slotCount := SUPERFRAME_SLOT_COUNT.toNat
  clusterheadProbability := 255

/-- `setup`; the flag is whether `lora::init` succeeds. -/
def setup (deviceId : Address) (radio : Bool) (timeS now : UInt32) : Program :=
  ⟨if radio then (Api.init (setupParams deviceId timeS) now boot).2 else boot, 0, [], false⟩

def run (deviceId : Address) (turns : List Turn) (p : Program) : Program :=
  turns.foldl (fun p t => loop deviceId t p) p

section Places

variable {inp : Input} {n : Node}

/-- What a node keeps of its place in a cluster. -/
def attachment (s : MultihopState) : Address × Address × UInt8 × UInt8 :=
  (s.address, s.clusterheadAddr, s.upstreamStartSlot, s.upstreamRelativeSlot)

/-- One of the messages is an Accept that gives the node the clusterhead and the slots it has. -/
def LetIn (msgs : List Bytes) (s : MultihopState) : Prop :=
  ∃ b ∈ msgs, ∃ sequence accepted remote tail, accepted ≠ 0 ∧
    decodeMsg b = some (⟨sequence, s.clusterheadAddr,
      .accept accepted s.address s.upstreamStartSlot s.upstreamRelativeSlot remote⟩, tail)

private theorem LetIn.congr {msgs : List Bytes} {s s' : MultihopState}
    (h : LetIn msgs s) (heq : attachment s' = attachment s) : LetIn msgs s' := by
  simp only [attachment, Prod.mk.injEq] at heq
  obtain ⟨haddress, hclusterhead, hstart, hrelative⟩ := heq
  rw [LetIn, haddress, hclusterhead, hstart, hrelative]
  exact h

private theorem LetIn.mono {msgs msgs' : List Bytes} {s : MultihopState} (h : LetIn msgs s)
    (hsub : ∀ b ∈ msgs, b ∈ msgs') : LetIn msgs' s := by
  obtain ⟨b, hb, hrest⟩ := h
  exact ⟨b, hsub b hb, hrest⟩

theorem startRound_attachment (round : Nat) (earlier : Bool) (n : Node) :
    attachment (startRound inp round earlier n).node.state = attachment n.state := by
  rw [startRound, startAnnouncement]
  dsimp only
  split_ifs <;> rfl

theorem promote_attachment (rand : UInt32) (n : Node) :
    attachment (promote rand n).state = attachment n.state := by
  rw [promote]
  split_ifs <;> rfl

theorem answerFollow_attachment (inp : Input) (isClusterhead : Bool) (m : Message) (n : Node) :
    attachment (answerFollow inp isClusterhead m n).1.state = attachment n.state := by
  rcases answerFollow_state inp isClusterhead m n with heq | ⟨-, heq⟩
  · rw [heq]
  · obtain ⟨table, count, hkept⟩ := assign_kept m.src n
    rw [heq, hkept]
    rfl

private theorem joinMessage_attachment (round : Nat) (isClusterhead : Bool) (l : JoinLocals)
    (n : Node) :
    attachment (joinMessage inp round isClusterhead l n).1.node.state = attachment n.state ∨
      LetIn n.link.rx (joinMessage inp round isClusterhead l n).1.node.state := by
  rw [joinMessage]
  dsimp only
  split
  · exact Or.inl rfl
  · next m tail hmsg =>
    obtain ⟨b, hget, hdec⟩ := Option.bind_eq_some_iff.mp hmsg
    have hb : b ∈ n.link.rx := by
      rcases Clusters.getmsg_cases n with hnone | ⟨c, hc, hsome⟩
      · exact absurd (hnone.symm.trans hget) (by simp)
      · rwa [← Option.some.inj (hsome.symm.trans hget)]
    have hanswer := answerFollow_attachment inp isClusterhead m
      { n with link := (Queue.getmsg n.link).2 }
    generalize (answerFollow inp isClusterhead m { n with link := (Queue.getmsg n.link).2 }).1 = n'
      at hanswer ⊢
    dsimp only
    rcases join_cases inp l m n' (roundMs n'.mac) with heq | ⟨-, heq⟩ |
      ⟨accepted, start, relative, remote, hbody, haccepted, hsrc, -, -, heq⟩
    · rw [heq]
      exact Or.inl hanswer
    · rw [heq]
      exact Or.inl hanswer
    · rw [heq]
      obtain ⟨sequence, src, body⟩ := m
      obtain rfl : body = _ := hbody
      obtain rfl : src = _ := hsrc
      refine Or.inr (LetIn.congr (s := (attach l start relative n').state) ?_
        (promote_attachment _ _))
      exact ⟨b, hb, sequence, accepted, remote, tail, haccepted, hdec⟩

/-- A step of a `do_advertise` under way keeps the place of its node or takes it from a message. -/
private theorem step_attachment (inp : Input) {p : Proc} (hstarted : p.control ≠ .idle) :
    attachment (step inp p).1.node.state = attachment p.node.state ∨
      LetIn p.node.link.rx (step inp p).1.node.state := by
  obtain ⟨control, n⟩ := p
  cases control with
  | idle => exact absurd rfl hstarted
  | discovery l =>
      rw [step]
      dsimp only
      split_ifs
      · exact Or.inl (startRound_attachment ..)
      · obtain ⟨neighbors, ring, rounds, hkept⟩ := heardState_kept inp n
        have hstate := (discoveryPass_state inp l n).trans hkept
        dsimp only
        rw [hstate]
        exact Or.inl rfl
  | announcement round earlier l =>
      rw [step]
      dsimp only
      split_ifs
      · exact Or.inl rfl
      · rw [announcementPass_state]
        exact Or.inl rfl
  | joining stage round isClusterhead l =>
      cases stage with
      | head =>
          rw [step]
          dsimp only
          split_ifs
          · exact Or.inl (startRound_attachment ..)
          · exact Or.inl rfl
          · rw [joinHead_state]
            exact Or.inl rfl
      | recv => exact Or.inl rfl
      | drain => exact joinMessage_attachment ..
  | done => exact Or.inl rfl

private theorem step_started (inp : Input) {p : Proc} (hstarted : p.control ≠ .idle) :
    (step inp p).1.control ≠ .idle := by
  obtain ⟨control, n⟩ := p
  cases control with
  | idle => exact absurd rfl hstarted
  | discovery l =>
      rw [step]
      dsimp only
      split_ifs <;> simp [startRound]
  | announcement round earlier l =>
      rw [step]
      dsimp only
      split_ifs <;> simp
  | joining stage round isClusterhead l =>
      cases stage with
      | head =>
          rw [step]
          dsimp only
          split_ifs <;> simp [startRound, finishAdvertise]
      | recv => simp [step]
      | drain =>
          rw [step]
          dsimp only
          rw [joinMessage]
          dsimp only
          split <;> simp
  | done => simp [step]

/-- In a `do_advertise` that hears `msgs` a node has no clusterhead or one that has let it in. -/
structure Joins (msgs : List Bytes) (p : Proc) : Prop where
  rx : ∀ b ∈ p.node.link.rx, b ∈ msgs
  place : p.control ≠ .idle →
    p.node.state.clusterheadAddr = UNKNOWN_ADDR ∨ LetIn msgs p.node.state

private theorem Joins.step {msgs : List Bytes} {p : Proc} (h : Joins msgs p)
    (hheard : ∀ b ∈ inp.heard, b ∈ msgs) : Joins msgs (Advertise.step inp p).1 := by
  by_cases hidle : p.control = .idle
  · obtain ⟨control, n⟩ := p
    obtain rfl : control = .idle := hidle
    obtain ⟨code, hmoves⟩ := Moves.start inp (· ∈ msgs) n
    refine ⟨fun b hb => (hmoves.rx b hb).elim (h.rx b) id, fun _ => ?_⟩
    rw [Advertise.step] at *
    dsimp only at *
    split_ifs at * with hslot
    · contradiction
    · exact Or.inl rfl
  · have hmoves := Moves.step hidle hheard
    refine ⟨fun b hb => (hmoves.rx b hb).elim (h.rx b) id, fun _ => ?_⟩
    rcases step_attachment inp hidle with heq | hletIn
    · refine (h.place hidle).imp ?_ fun hl => hl.congr heq
      intro hunknown
      simp only [attachment, Prod.mk.injEq] at heq
      rw [heq.2.1]
      exact hunknown
    · exact Or.inr (hletIn.mono h.rx)

private theorem Joins.run {msgs : List Bytes} {p : Proc} {inps : List Input} (h : Joins msgs p)
    (hheard : ∀ inp ∈ inps, ∀ b ∈ inp.heard, b ∈ msgs) : Joins msgs (Advertise.run inps p) := by
  induction inps generalizing p with
  | nil => exact h
  | cons inp inps ih =>
      exact ih (h.step (hheard inp List.mem_cons_self))
        fun inp' hinp' => hheard inp' (List.mem_cons_of_mem _ hinp')

private theorem advertiseFrames_code {inps : List Input} {p : Proc} (hstarted : p.control ≠ .idle) :
    ∀ f ∈ advertiseFrames inps p, f.code = p.node.link.code := by
  induction inps generalizing p with
  | nil => exact fun f hf => absurd hf List.not_mem_nil
  | cons inp inps ih =>
      have hmoves : Moves _ (· ∈ inp.heard) p.node _ _ := Moves.step hstarted fun b hb => hb
      have hnext := step_started inp hstarted
      intro f hf
      rcases List.mem_append.mp hf with hf | hf
      · exact (hmoves.sent f hf).1
      · exact (ih hnext f hf).trans hmoves.code

end Places

section Calls

/-- The calls of the loop from `do_advertise` to `do_follower_recv`. -/
def keepsPlace : Op → Bool
  | .epochAndOffset _ _ | .mySlotTime _ | .sendDatagram _ _ | .doFollowerSend _ _ _
  | .doClusterheadSend _ | .doClusterheadRecv _ => true
  | _ => false

private theorem isAdvertise_of_keepsPlace {op : Op} (h : keepsPlace op = true) :
    isAdvertise op = false := by
  cases op <;> first | rfl | exact absurd h (by simp [keepsPlace])

private theorem keepsPlace_standing (op : Op) (h : keepsPlace op = true) (n : Node) :
    Rotation.standing (op.exec n).state = Rotation.standing n.state := by
  apply Rotation.exec_standing (isAdvertise_of_keepsPlace h)
  rintro p rfl
  exact absurd h (by simp [keepsPlace])

private theorem keepsPlace_attachment (op : Op) (h : keepsPlace op = true) (n : Node) :
    attachment (op.exec n).state = attachment n.state := by
  cases op with
  | doClusterheadRecv inp =>
      have hfold (relative : UInt8) (msgs : List Bytes) (n : Node) :
          attachment (msgs.foldl (takeDatagram relative) n).state = attachment n.state := by
        induction msgs generalizing n with
        | nil => rfl
        | cons b msgs ih =>
            rw [List.foldl_cons, ih, takeDatagram]
            split <;> rfl
      rw [Op.exec, doClusterheadRecv]
      dsimp only
      split
      · rfl
      · split_ifs
        · rfl
        · rfl
        · exact hfold ..
  | setClusterheadProbability p => exact absurd h (by simp [keepsPlace])
  | accept follower remote stamp => exact absurd h (by simp [keepsPlace])
  | doAdvertise inps => exact absurd h (by simp [keepsPlace])
  | doFollowerRecv slotNow passes => exact absurd h (by simp [keepsPlace])
  | _ => exact congrArg attachment (exec_state rfl n)

/-- The last `do_advertise` among the calls has given the node the clusterhead and the slots it has,
with a message it heard or found in the queue. -/
def Joined (calls : List (Node × Op)) (s : MultihopState) : Prop :=
  ∃ earlier m inps between, calls = earlier ++ (m, .doAdvertise inps) :: between ∧
    (∀ c ∈ between, isAdvertise c.2 = false) ∧ LetIn (m.link.rx ++ inps.flatMap Input.heard) s

private theorem Joined.call {calls : List (Node × Op)} {n : Node} {op : Op}
    (h : Joined calls n.state)
    (hop : keepsPlace op = true) : Joined (calls ++ [(n, op)]) (op.exec n).state := by
  obtain ⟨earlier, m, inps, between, heq, hbetween, hletIn⟩ := h
  refine ⟨earlier, m, inps, between ++ [(n, op)], by rw [heq]; simp, ?_,
    hletIn.congr (keepsPlace_attachment _ hop n)⟩
  intro c hc
  rcases List.mem_append.mp hc with hc | hc
  · exact hbetween c hc
  · rw [List.mem_singleton.mp hc]
    exact isAdvertise_of_keepsPlace hop

/-- The last of the calls has asked for the time of the slot and got it. -/
def Awaited (calls : List (Node × Op)) (slot : UInt8) : Prop :=
  ∃ earlier m now, calls = earlier ++ [(m, .epochAndOffset slot now)] ∧
    sleeps (Api.epochAndOffset slot now m).1 = true

/-- The frames that the loop may send, after the calls before: those of a `do_advertise` begun in
the advertising slot, on the default code; those of a clusterhead that has waited for the last slot
of its window, on the code of slot 0; and those of a node that has joined a cluster since the last
`do_advertise` in the slot it was given there, on its code. -/
inductive InTurn (before : List (Node × Op)) (n : Node) : Op → Queue.Frame → Prop
  | advertise (inp : Input) (inps : List Input) (f : Queue.Frame)
      (hslot : (activeSlot (inp.now 0) n).1 = ADVERTISEMENT_SLOT.toNat)
      (hcode : f.code = hashCdmaCode DEFAULT_CODE) : InTurn before n (.doAdvertise (inp :: inps)) f
  | clusterhead (inp : SendInput) (f : Queue.Frame) (hrole : n.state.actsAsClusterhead = true)
      (hawaited : Awaited before (n.state.downstreamStartSlot + VTDMA_WINDOW - 1))
      (hcode : f.code = hashCdmaCode 0) : InTurn before n (.doClusterheadSend inp) f
  | follower (slotNow flushNow : UInt32) (sent : Bool) (f : Queue.Frame)
      (hrole : n.state.actsAsFollower = true)
      (hslot : (activeSlot slotNow n).1 = (mySlot n.state).toNat)
      (hcode : f.code = hashCdmaCode n.state.upstreamRelativeSlot)
      (hjoined : Joined before n.state) : InTurn before n (.doFollowerSend slotNow flushNow sent) f

/-- Every frame of the calls was in its turn. -/
def Orderly (calls : List (Node × Op)) : Prop :=
  ∀ before n op after, calls = before ++ (n, op) :: after → ∀ f ∈ sends op n, InTurn before n op f

private theorem Orderly.nil : Orderly [] := by
  intro before n op after heq
  exact absurd heq.symm (by simp)

private theorem Orderly.snoc {calls : List (Node × Op)} {n : Node} {op : Op} (h : Orderly calls)
    (hsends : ∀ f ∈ sends op n, InTurn calls n op f) : Orderly (calls ++ [(n, op)]) := by
  intro before n' op' after heq
  rcases List.eq_nil_or_concat after with rfl | ⟨after, c, rfl⟩
  · obtain ⟨rfl, hlast⟩ := List.append_inj' heq rfl
    obtain ⟨rfl, rfl⟩ := Prod.mk.inj (List.cons.inj hlast).1
    exact hsends
  · rw [List.concat_eq_append, ← List.cons_append, ← List.append_assoc] at heq
    obtain ⟨rfl, -⟩ := List.append_inj' heq rfl
    exact h before n' op' after rfl

end Calls

section Turns

variable {p : Program}

/-- A program between its `do_advertise` and the end of the turn. -/
structure UnderWay (p : Program) : Prop where
  orderly : Orderly p.calls
  joined : p.node.state.clusterheadAddr = UNKNOWN_ADDR ∨ Joined p.calls p.node.state

private theorem UnderWay.call {op : Op} (h : UnderWay p) (hop : keepsPlace op = true)
    (hsends : ∀ f ∈ sends op p.node, InTurn p.calls p.node op f) : UnderWay (p.call op) where
  orderly := h.orderly.snoc hsends
  joined := by
    refine h.joined.imp ?_ fun hjoined => hjoined.call hop
    intro hunknown
    have hplace := keepsPlace_attachment _ hop p.node
    simp only [attachment, Prod.mk.injEq] at hplace
    exact hplace.2.1.trans hunknown

private theorem UnderWay.quiet (h : UnderWay p) (op : Op) (hop : keepsPlace op = true)
    (hquiet : sends op p.node = []) : UnderWay (p.call op) := by
  apply h.call hop
  intro f hf
  rw [hquiet] at hf
  exact absurd hf List.not_mem_nil

private theorem UnderWay.receiveSlots (t : Turn) (slots : List UInt8) (h : UnderWay p) :
    UnderWay (MainLoop.receiveSlots t slots p) ∧
      Rotation.standing (MainLoop.receiveSlots t slots p).node.state =
        Rotation.standing p.node.state := by
  induction slots generalizing p with
  | nil => exact ⟨h, rfl⟩
  | cons slot slots ih =>
      rw [MainLoop.receiveSlots]
      dsimp only [callEpochAndOffset]
      have hepoch := h.quiet (.epochAndOffset (p.node.state.downstreamStartSlot + slot)
        (t.recvs slot).1) rfl rfl
      have hsame := keepsPlace_standing (.epochAndOffset
        (p.node.state.downstreamStartSlot + slot) (t.recvs slot).1) rfl p.node
      split_ifs
      · obtain ⟨hrest, hstanding⟩ :=
          ih (hepoch.quiet (.doClusterheadRecv (t.recvs slot).2) rfl rfl)
        exact ⟨hrest, hstanding.trans ((keepsPlace_standing _ rfl _).trans hsame)⟩
      · exact ⟨hepoch, hsame⟩

private theorem actsAsClusterhead_congr {s s' : MultihopState}
    (h : Rotation.standing s' = Rotation.standing s) :
    s'.actsAsClusterhead = s.actsAsClusterhead ∧ s'.actsAsFollower = s.actsAsFollower := by
  simp only [Rotation.standing, Prod.mk.injEq] at h
  rw [MultihopState.actsAsClusterhead, MultihopState.actsAsFollower, h.1]
  exact ⟨rfl, rfl⟩

private theorem UnderWay.downstream (t : Turn) (h : UnderWay p) :
    UnderWay (MainLoop.downstream t p) := by
  rw [MainLoop.downstream]
  split_ifs with hrole
  · obtain ⟨hrecv, hstanding⟩ := h.receiveSlots t [1, 2, 3, 4, 5]
    generalize MainLoop.receiveSlots t [1, 2, 3, 4, 5] p = q at hrecv hstanding ⊢
    rw [sendAcksSlot]
    dsimp only [callEpochAndOffset]
    generalize hslot : q.node.state.downstreamStartSlot + VTDMA_WINDOW - 1 = slot
    have hepoch := hrecv.quiet (.epochAndOffset slot t.chNow) rfl rfl
    have hacts := (actsAsClusterhead_congr
      ((keepsPlace_standing (.epochAndOffset slot t.chNow) rfl _).trans hstanding)).1
    split_ifs with hfound
    · apply hepoch.call rfl
      intro f hf
      obtain ⟨-, msgs, -, hcase⟩ :=
        Relay.doClusterheadSend_adds t.send (q.call (.epochAndOffset slot t.chNow)).node
      rw [sends] at hf
      rcases hcase with ⟨-, -, hframes⟩ | ⟨-, -, hframes⟩
      · rw [hframes] at hf
        refine .clusterhead t.send f (hacts.trans hrole) ?_ (by rw [List.mem_singleton.mp hf])
        refine ⟨q.calls, q.node, t.chNow, ?_⟩
        rw [Program.call, exec_state rfl, hslot]
        exact ⟨rfl, hfound⟩
      · rw [hframes] at hf
        exact absurd hf List.not_mem_nil
    · exact hepoch
  · exact h

private theorem UnderWay.sendReading (deviceId : Address) (t : Turn) (h : UnderWay p)
    (hrole : p.node.state.actsAsFollower = true)
    (hjoined : p.node.state.clusterheadAddr ≠ UNKNOWN_ADDR) :
    UnderWay (MainLoop.sendReading deviceId t p) := by
  rw [MainLoop.sendReading]
  generalize DatagramIterator.create _ _ = iter
  have hnext : UnderWay { p with dataSeq := p.dataSeq + 1 } := ⟨h.orderly, h.joined⟩
  have hqueued := hnext.quiet (.sendDatagram t.stamp iter) rfl rfl
  apply hqueued.call rfl
  intro f hf
  obtain ⟨hslot, hcode⟩ := doFollowerSend_frames hf
  refine .follower _ _ _ f ?_ hslot hcode (hqueued.joined.resolve_left ?_)
  · exact (actsAsClusterhead_congr (keepsPlace_standing _ rfl _)).2.trans hrole
  · have hplace := keepsPlace_attachment (.sendDatagram t.stamp iter) rfl p.node
    simp only [attachment, Prod.mk.injEq] at hplace
    exact fun hunknown => hjoined (hplace.2.1.symm.trans hunknown)

private theorem Orderly.quiet (h : Orderly p.calls) (op : Op) (hquiet : sends op p.node = []) :
    Orderly (p.call op).calls := by
  apply h.snoc
  intro f hf
  rw [hquiet] at hf
  exact absurd hf List.not_mem_nil

private theorem UnderWay.followerSend (deviceId : Address) (t : Turn) (h : UnderWay p)
    (hrole : p.node.state.actsAsFollower = true)
    (hjoined : p.node.state.clusterheadAddr ≠ UNKNOWN_ADDR) :
    UnderWay (MainLoop.followerSend deviceId t p) := by
  have hslot := h.quiet (.mySlotTime t.myNow) rfl rfl
  rw [MainLoop.followerSend]
  split_ifs
  · apply hslot.sendReading
    · exact (actsAsClusterhead_congr (keepsPlace_standing _ rfl _)).2.trans hrole
    · have hplace := keepsPlace_attachment (.mySlotTime t.myNow) rfl p.node
      simp only [attachment, Prod.mk.injEq] at hplace
      exact fun hunknown => hjoined (hplace.2.1.symm.trans hunknown)
  · exact hslot

private theorem Orderly.followerRecv (t : Turn) (h : Orderly p.calls) :
    Orderly (MainLoop.followerRecv t p).calls := by
  have hepoch := h.quiet (.epochAndOffset p.node.state.upstreamAckSlot t.ackNow) rfl
  rw [MainLoop.followerRecv]
  dsimp only [callEpochAndOffset]
  split_ifs
  · exact hepoch.quiet _ rfl
  · exact hepoch

private theorem UnderWay.upstream (deviceId : Address) (t : Turn) (h : UnderWay p) :
    Orderly (MainLoop.upstream deviceId t p).calls := by
  rw [MainLoop.upstream]
  split_ifs with hfollows
  · rw [Bool.and_eq_true_iff, decide_eq_true_iff] at hfollows
    exact (h.followerSend deviceId t hfollows.1 hfollows.2).orderly.followerRecv t
  · exact h.orderly

private theorem step_idle (inp : Input) (n : Node) :
    (step inp ⟨.idle, n⟩).2 = [] ∧ ((step inp ⟨.idle, n⟩).1.control ≠ .idle →
      (activeSlot (inp.now 0) n).1 = ADVERTISEMENT_SLOT.toNat ∧
        (step inp ⟨.idle, n⟩).1.node.link.code = hashCdmaCode DEFAULT_CODE) := by
  rw [step]
  dsimp only
  split_ifs with hslot
  · exact ⟨rfl, fun hidle => absurd rfl hidle⟩
  · exact ⟨rfl, fun _ => ⟨not_not.mp hslot, rfl⟩⟩

private theorem callAdvertise_orderly (inps : List Input) (h : Orderly p.calls) :
    Orderly (callAdvertise inps p).2.calls ∧
      ((callAdvertise inps p).1 = true → UnderWay (callAdvertise inps p).2) := by
  cases inps with
  | nil => exact ⟨h, fun hf => absurd hf (by simp [callAdvertise])⟩
  | cons inp inps =>
      obtain ⟨hnone, hslot⟩ := step_idle inp p.node
      rw [callAdvertise]
      by_cases hidle : (step inp ⟨.idle, p.node⟩).1.control = .idle
      · rw [if_pos (by rw [hidle]; rfl)]
        refine ⟨h.quiet _ ?_, fun hf => absurd hf (by simp)⟩
        rw [sends, advertiseFrames, hnone]
        rfl
      · rw [if_neg (by simpa [Joining.started_iff] using hidle)]
        obtain ⟨hfound, hcode⟩ := hslot hidle
        have hsent : Orderly (p.call (.doAdvertise (inp :: inps))).calls := by
          apply h.snoc
          intro f hf
          rw [sends, advertiseFrames, hnone, List.nil_append] at hf
          exact .advertise inp inps f hfound ((advertiseFrames_code hidle f hf).trans hcode)
        refine ⟨hsent, fun hdone => ⟨hsent, ?_⟩⟩
        have hjoins : Joins (p.node.link.rx ++ (inp :: inps).flatMap Input.heard)
            (Advertise.run (inp :: inps) ⟨.idle, p.node⟩) := by
          refine Joins.run ⟨fun b hb => List.mem_append_left _ hb, fun hi => absurd rfl hi⟩ ?_
          intro inp' hinp' b hb
          exact List.mem_append_right _ (List.mem_flatMap.mpr ⟨inp', hinp', hb⟩)
        refine (hjoins.place ?_).imp id fun hletIn =>
          ⟨p.calls, p.node, inp :: inps, [], rfl, fun c hc => absurd hc List.not_mem_nil, hletIn⟩
        intro hi
        have hdone : (Advertise.run (inp :: inps) ⟨.idle, p.node⟩).control.isDone = true := hdone
        rw [hi] at hdone
        exact absurd hdone (by simp [Control.isDone])

private theorem loop_orderly (deviceId : Address) (t : Turn) (h : Orderly p.calls) :
    Orderly (loop deviceId t p).calls := by
  have hslot := h.quiet (.advertisementSlot t.advNow) rfl
  have hadvertise := callAdvertise_orderly t.advertise hslot
  rw [loop]
  dsimp only
  split_ifs
  · exact h
  · exact hslot
  · next hdone => exact ((hadvertise.2 hdone).downstream t).upstream deviceId t
  · exact hadvertise.1

end Turns

/-- From `setup` on, whatever the clock, the radio and the other nodes do: each frame that the
program sends is a frame of a `do_advertise` begun in the advertising slot, of an acting clusterhead
that has waited for the last slot of its window, or of a node in the slot and on the code that an
Accept of its clusterhead has given it in the last `do_advertise`. -/
theorem program_sends_in_turn (deviceId : Address) (radio : Bool) (timeS now : UInt32)
    (turns : List Turn) :
    Orderly (run deviceId turns (setup deviceId radio timeS now)).calls := by
  have hrun (p : Program) (h : Orderly p.calls) : Orderly (run deviceId turns p).calls := by
    induction turns generalizing p with
    | nil => exact h
    | cons t turns ih => exact ih _ (loop_orderly deviceId t h)
  exact hrun _ Orderly.nil

section Texts

private theorem digit_toNat {d n : Nat} (hd : d ∈ Nat.digits 10 n) :
    (UInt8.ofNat (48 + d)).toNat = 48 + d := by
  have hlt := Nat.digits_lt_base (by decide : 1 < 10) hd
  rw [UInt8.toNat_ofNat']
  omega

private theorem decimal_digits {n : Nat} (hn : n < 2 ^ 32) :
    (decimal n).length ≤ 10 ∧ ∀ b ∈ decimal n, b ≠ 58 := by
  rw [decimal]
  split_ifs with hzero
  · exact ⟨by decide, by simp⟩
  · refine ⟨?_, ?_⟩
    · have hpow : 2 ^ 32 ≤ 10 ^ 10 := by norm_num
      rw [List.length_map, List.length_reverse, Nat.digits_length_le_iff (by decide)]
      exact hn.trans_le hpow
    · intro b hb heq
      obtain ⟨d, hd, rfl⟩ := List.mem_map.mp hb
      rw [List.mem_reverse] at hd
      have hlt := Nat.digits_lt_base (by decide : 1 < 10) hd
      have hnat := (digit_toNat hd).symm.trans (congrArg UInt8.toNat heq)
      have hcolon : (58 : UInt8).toNat = 58 := rfl
      omega

def ofDecimal (digits : Bytes) : Nat :=
  Nat.ofDigits 10 (digits.reverse.map fun b => b.toNat - 48)

private theorem ofDecimal_decimal (n : Nat) : ofDecimal (decimal n) = n := by
  rw [ofDecimal, decimal]
  split_ifs with hzero
  · rw [hzero]
    rfl
  · rw [← List.map_reverse, List.reverse_reverse, List.map_map]
    have hdigits : (Nat.digits 10 n).map ((fun b : UInt8 => b.toNat - 48) ∘
        fun d => UInt8.ofNat (48 + d)) = Nat.digits 10 n := by
      refine (List.map_congr_left fun d hd => ?_).trans (List.map_id _)
      rw [Function.comp_apply, digit_toNat hd, Nat.add_sub_cancel_left]
      rfl
    rw [hdigits, Nat.ofDigits_digits]

private theorem append_cons_inj {b : UInt8} {xs xs' ys ys' : Bytes} (hxs : ∀ x ∈ xs, x ≠ b)
    (hxs' : ∀ x ∈ xs', x ≠ b) (h : xs ++ b :: ys = xs' ++ b :: ys') : xs = xs' ∧ ys = ys' := by
  induction xs generalizing xs' with
  | nil =>
      cases xs' with
      | nil => exact ⟨rfl, (List.cons.inj h).2⟩
      | cons x xs' => exact absurd (List.cons.inj h).1.symm (hxs' x List.mem_cons_self)
  | cons x xs ih =>
      cases xs' with
      | nil => exact absurd (List.cons.inj h).1 (hxs x List.mem_cons_self)
      | cons x' xs' =>
          obtain ⟨rfl, hrest⟩ := List.cons.inj h
          obtain ⟨rfl, rfl⟩ := ih (fun y hy => hxs y (List.mem_cons_of_mem _ hy))
            (fun y hy => hxs' y (List.mem_cons_of_mem _ hy)) hrest
          exact ⟨rfl, rfl⟩

private theorem text_injective {id id' : Address} {seq seq' : UInt32}
    (h : text id seq = text id' seq') : id = id' ∧ seq = seq' := by
  have hcolon (a : Address) : ∀ b ∈ decimal a.toNat, b ≠ 58 :=
    (decimal_digits (a.toNat_lt.trans (by norm_num))).2
  simp only [text, List.append_assoc] at h
  obtain ⟨hid, hrest⟩ := append_cons_inj (hcolon id) (hcolon id') (List.append_cancel_left h)
  have hseq : decimal seq.toNat = decimal seq'.toNat :=
    (List.append_right_inj [115, 101, 113, 61]).mp hrest
  refine ⟨UInt8.toNat_inj.mp ?_, UInt32.toNat_inj.mp ?_⟩
  · rw [← ofDecimal_decimal id.toNat, hid, ofDecimal_decimal]
  · rw [← ofDecimal_decimal seq.toNat, hseq, ofDecimal_decimal]

private theorem payload_eq (id : Address) (seq : UInt32) :
    payload id seq = text id seq ∧ (text id seq).length ≤ 30 := by
  have hid := (decimal_digits (n := id.toNat) (id.toNat_lt.trans (by norm_num))).1
  have hseq := (decimal_digits seq.toNat_lt).1
  have hlength : (text id seq).length ≤ 30 := by
    simp only [text, List.length_append, List.length_cons, List.length_nil]
    omega
  exact ⟨List.take_of_length_le (by omega), hlength⟩

end Texts

section Readings

variable {deviceId : Address} {p : Program}

private theorem create_single {buf : Bytes} {max : UInt16} (hpos : buf ≠ [])
    (hle : buf.length ≤ max.toNat) :
    ∃ iter', (DatagramIterator.create buf max).next =
        some (.datagram (UInt16.ofNat buf.length) 1 0, buf, iter') ∧ iter'.next = none := by
  have hlen := List.length_pos_iff.mpr hpos
  have hmax := max.toNat_lt
  have hcount : (buf.length + max.toNat - 1) / max.toNat = 1 :=
    Nat.div_eq_of_lt_le (by omega) (by omega)
  have hcreate : DatagramIterator.create buf max = ⟨0, 1, 0, buf, max, 0⟩ := by
    rw [DatagramIterator.create, hcount]
    rfl
  have hhas : (DatagramIterator.mk 0 1 0 buf max 0).hasNext = true :=
    decide_eq_true (by dsimp only; omega)
  have hall : Fragments.nextSize (DatagramIterator.mk 0 1 0 buf max 0) = buf.length :=
    min_eq_left hle
  have hnext := Fragments.next_some hhas
  rw [hall, List.drop_zero, List.take_length] at hnext
  rw [hcreate]
  refine ⟨_, hnext, Fragments.next_none (decide_eq_false ?_)⟩
  rw [not_not, Fragments.advanced, hall]
  exact Nat.zero_add _

def reading : Op → Option DatagramIterator
  | .sendDatagram _ iter => some iter
  | _ => none

def readings (calls : List (Node × Op)) : List DatagramIterator :=
  calls.filterMap fun c => reading c.2

def numbered (deviceId : Address) (i : Nat) : DatagramIterator :=
  DatagramIterator.create (payload deviceId (UInt32.ofNat i))
    (UInt16.ofNat (setupLink.msgMaxBytes - HEADER_SZ - DATAGRAM_SZ))

/-- The readings sent are the first ones, `data_seq` is the next. -/
structure Counted (deviceId : Address) (p : Program) : Prop where
  room : p.node.link.msgMaxBytes = setupLink.msgMaxBytes
  counted : ∃ k, p.dataSeq = UInt32.ofNat k ∧
    readings p.calls = (List.range k).map (numbered deviceId)

private theorem moves_msgMaxBytes {new heard : Bytes → Prop} {n n' : Node} {fs : List Queue.Frame}
    (h : Moves new heard n n' fs) : n'.link.msgMaxBytes = n.link.msgMaxBytes := by
  have hkept := h.kept
  simp only [settings, Prod.mk.injEq] at hkept
  exact hkept.2.2.1

private theorem run_msgMaxBytes (inps : List Input) (q : Proc) :
    (Advertise.run inps q).node.link.msgMaxBytes = q.node.link.msgMaxBytes := by
  induction inps generalizing q with
  | nil => rfl
  | cons inp inps ih =>
      refine (ih _).trans ?_
      by_cases hidle : q.control = .idle
      · obtain ⟨control, n⟩ := q
        obtain rfl : control = .idle := hidle
        obtain ⟨code, hmoves⟩ := Moves.start inp (fun _ => True) n
        have hsame := moves_msgMaxBytes hmoves
        exact hsame
      · exact moves_msgMaxBytes (Moves.step hidle fun b hb => hb)

private theorem exec_msgMaxBytes (op : Op) (n : Node) :
    (op.exec n).link.msgMaxBytes = n.link.msgMaxBytes := by
  cases hop : isAdvertise op with
  | false =>
      obtain ⟨code, hmoves⟩ := Moves.exec hop n
      have hsame := moves_msgMaxBytes hmoves
      exact hsame
  | true =>
      cases op with
      | doAdvertise inps => exact run_msgMaxBytes inps ⟨.idle, n⟩
      | _ => exact absurd hop (by simp [isAdvertise])

private theorem Counted.call {op : Op} (h : Counted deviceId p) (hop : reading op = none) :
    Counted deviceId (p.call op) where
  room := (exec_msgMaxBytes op p.node).trans h.room
  counted := by
    obtain ⟨k, hseq, hreadings⟩ := h.counted
    refine ⟨k, hseq, ?_⟩
    rw [← hreadings, Program.call, readings, readings, List.filterMap_append]
    simp [hop]

private theorem Counted.sendReading (t : Turn) (h : Counted deviceId p) :
    Counted deviceId (MainLoop.sendReading deviceId t p) := by
  obtain ⟨k, hseq, hreadings⟩ := h.counted
  rw [MainLoop.sendReading]
  refine Counted.call ⟨?_, k + 1, ?_, ?_⟩ rfl
  · exact (exec_msgMaxBytes _ _).trans h.room
  · change p.dataSeq + 1 = UInt32.ofNat (k + 1)
    rw [hseq, UInt32.ofNat_add]
    rfl
  · rw [List.range_succ, List.map_append, ← hreadings, readings, Program.call,
      List.filterMap_append, h.room, hseq]
    rfl

theorem downstream_induction {P : Program → Prop} (t : Turn)
    (hcall : ∀ p op, isAdvertise op = false → reading op = none → P p → P (p.call op))
    (h : P p) : P (downstream t p) := by
  have hrecv (slots : List UInt8) (p : Program) (h : P p) : P (receiveSlots t slots p) := by
    induction slots generalizing p with
    | nil => exact h
    | cons slot slots ih =>
        rw [receiveSlots]
        dsimp only [callEpochAndOffset]
        split_ifs
        · exact ih _ (hcall _ _ rfl rfl (hcall _ _ rfl rfl h))
        · exact hcall _ _ rfl rfl h
  rw [downstream]
  split_ifs
  · rw [sendAcksSlot]
    dsimp only [callEpochAndOffset]
    split_ifs
    · exact hcall _ _ rfl rfl (hcall _ _ rfl rfl (hrecv _ _ h))
    · exact hcall _ _ rfl rfl (hrecv _ _ h)
  · exact h

theorem followerSend_induction {P : Program → Prop} (t : Turn)
    (hcall : ∀ p op, isAdvertise op = false → reading op = none → P p → P (p.call op))
    (hreading : ∀ p, P p → P (sendReading deviceId t p)) (h : P p) :
    P (followerSend deviceId t p) := by
  rw [followerSend]
  split_ifs
  · exact hreading _ (hcall _ _ rfl rfl h)
  · exact hcall _ _ rfl rfl h

private theorem loop_induction {P : Program → Prop} (t : Turn)
    (hcall : ∀ p op, reading op = none → P p → P (p.call op))
    (hreading : ∀ p, P p → P (sendReading deviceId t p))
    (hwaiting : ∀ p w, P p → P { p with waiting := w }) (h : P p) : P (loop deviceId t p) := by
  have hothers (p : Program) (op : Op) (_ : isAdvertise op = false) (hop : reading op = none)
      (h : P p) : P (p.call op) := hcall p op hop h
  have hadvertise (inps : List Input) (p : Program) (h : P p) : P (callAdvertise inps p).2 := by
    cases inps with
    | nil => exact hwaiting _ _ h
    | cons inp inps =>
        rw [callAdvertise]
        split_ifs
        · exact hcall _ _ rfl h
        · exact hwaiting _ _ (hcall _ _ rfl h)
  have hupstream (p : Program) (h : P p) : P (upstream deviceId t p) := by
    have hsend := followerSend_induction t hothers hreading h
    rw [upstream]
    split_ifs
    · rw [followerRecv]
      dsimp only [callEpochAndOffset]
      split_ifs
      · exact hwaiting _ _ (hcall _ _ rfl (hcall _ _ rfl hsend))
      · exact hcall _ _ rfl hsend
    · exact h
  rw [loop]
  dsimp only
  split_ifs
  · exact h
  · exact hcall _ _ rfl h
  · exact hupstream _ (downstream_induction t hothers (hadvertise _ _ (hcall _ _ rfl h)))
  · exact hadvertise _ _ (hcall _ _ rfl h)

theorem Counted.run (turns : List Turn) (h : Counted deviceId p) :
    Counted deviceId (MainLoop.run deviceId turns p) := by
  induction turns generalizing p with
  | nil => exact h
  | cons t turns ih =>
      apply ih
      apply loop_induction t
      · exact fun p op hop hp => hp.call hop
      · exact fun p hp => hp.sendReading t
      · exact fun p w hp => ⟨hp.room, hp.counted⟩
      · exact h

/-- Without the radio `setup` gives up, and the program does nothing. -/
theorem run_uninitialized (turns : List Turn) (h : p.node.state.initialized = false) :
    MainLoop.run deviceId turns p = p := by
  induction turns generalizing p with
  | nil => rfl
  | cons t turns ih =>
      rw [MainLoop.run, List.foldl_cons, loop, if_pos (Or.inr h)]
      exact ih h

theorem setup_counted (deviceId : Address) (timeS now : UInt32) :
    Counted deviceId (setup deviceId true timeS now) := by
  have hslots : ¬ (setupParams deviceId timeS).slotCount <
      (setupParams deviceId timeS).mac.superframeSlotCount.toNat := lt_irrefl _
  have hlink : (Queue.init (setupParams deviceId timeS).mac (setupParams deviceId timeS).link now
      boot.link).1 = .ok := rfl
  refine ⟨?_, 0, rfl, rfl⟩
  rw [setup, if_pos rfl, Api.init, if_neg hslots]
  dsimp only
  rw [hlink, if_neg (not_not.mpr rfl)]
  dsimp only
  split_ifs <;> rfl

theorem numbered_buf (deviceId : Address) (i : Nat) :
    (numbered deviceId i).buf = text deviceId (UInt32.ofNat i) := by
  rw [← (payload_eq deviceId (UInt32.ofNat i)).1, numbered, DatagramIterator.create]
  split_ifs <;> rfl

theorem numbered_single (deviceId : Address) (i : Nat) :
    ∃ iter', (numbered deviceId i).next =
      some (.datagram (UInt16.ofNat (numbered deviceId i).buf.length) 1 0,
        (numbered deviceId i).buf, iter') ∧ iter'.next = none := by
  obtain ⟨hpayload, hlength⟩ := payload_eq deviceId (UInt32.ofNat i)
  rw [numbered_buf, numbered, hpayload]
  apply create_single
  · simp [text]
  · exact hlength.trans (by decide)

/-- The readings of a node are numbered from zero on, whether or not they reach the queue; each is
whole in one datagram of one part. No two of the first 2 ^ 32 are alike, nor are those of two
nodes. -/
theorem readings_numbered (deviceId : Address) (radio : Bool) (timeS now : UInt32)
    (turns : List Turn) :
    let p := run deviceId turns (setup deviceId radio timeS now)
    ∃ k, p.dataSeq = UInt32.ofNat k ∧
      (readings p.calls).map DatagramIterator.buf =
        (List.range k).map (fun i => text deviceId (UInt32.ofNat i)) ∧
      (∀ iter ∈ readings p.calls, ∃ iter', iter.next =
        some (.datagram (UInt16.ofNat iter.buf.length) 1 0, iter.buf, iter') ∧
          iter'.next = none) ∧
      (k ≤ 2 ^ 32 → ((readings p.calls).map DatagramIterator.buf).Nodup) ∧
      ∀ deviceId' ≠ deviceId, ∀ seq, text deviceId' seq ∉ (readings p.calls).map
        DatagramIterator.buf := by
  intro p
  obtain ⟨k, hseq, hreadings⟩ : ∃ k, p.dataSeq = UInt32.ofNat k ∧
      readings p.calls = (List.range k).map (numbered deviceId) := by
    cases radio with
    | true => exact (Counted.run turns (setup_counted deviceId timeS now)).counted
    | false =>
        have hnone : p = setup deviceId false timeS now := run_uninitialized turns rfl
        rw [hnone]
        exact ⟨0, rfl, rfl⟩
  have htexts : (readings p.calls).map DatagramIterator.buf =
      (List.range k).map (fun i => text deviceId (UInt32.ofNat i)) := by
    rw [hreadings, List.map_map]
    exact List.map_congr_left fun i _ => numbered_buf deviceId i
  refine ⟨k, hseq, htexts, ?_, ?_, ?_⟩
  · intro iter hiter
    rw [hreadings] at hiter
    obtain ⟨i, -, rfl⟩ := List.mem_map.mp hiter
    exact numbered_single deviceId i
  · intro hk
    rw [htexts]
    apply List.Nodup.map_on _ List.nodup_range
    intro i hi j hj heq
    have hsame := congrArg UInt32.toNat (text_injective heq).2
    rw [List.mem_range] at hi hj
    rwa [UInt32.toNat_ofNat_of_lt' (hi.trans_le hk), UInt32.toNat_ofNat_of_lt' (hj.trans_le hk)]
      at hsame
  · intro deviceId' hne seq hmem
    rw [htexts] at hmem
    obtain ⟨i, -, heq⟩ := List.mem_map.mp hmem
    exact hne (text_injective heq).1.symm

end Readings

end LoraMultihop.Multihop.MainLoop
