/- digest: Which parameters that init accepts are safe from a division by zero and give every ring
a window. -/

import LoraMultihop.Multihop.Bounds
import LoraMultihop.Multihop.Clock
import LoraMultihop.Multihop.Layout

set_option autoImplicit false
set_option relaxedAutoImplicit false

namespace LoraMultihop.Multihop.Divisors

open LoraMultihop.Foundation.ByteMemory (Bytes)
open LoraMultihop.Net.Params
open LoraMultihop.Link
open LoraMultihop.Link.Mac
open LoraMultihop.Multihop.Messages
open LoraMultihop.Multihop.State
open LoraMultihop.Multihop.Sending
open LoraMultihop.Multihop.Slots
open LoraMultihop.Multihop.Discovery (Input)
open LoraMultihop.Multihop.Advertise
open LoraMultihop.Multihop.Api
open LoraMultihop.Multihop.Clock

/-! The divisors of a function, in the order in which it divides; divisions by a constant of the
code (2, 3, 4, 5, 6, 7) are left out. -/

section Link

/-- `next_time_interval`. -/
def intervalDivisors (interval : UInt32) : List Nat :=
  if interval = 0 then [] else [interval.toNat]

/-- The refresh of the cached window. -/
def refreshDivisors (mac : MacParams) (w : MacState) (now : UInt32) : List Nat :=
  if afterWindow w now then intervalDivisors mac.superframeFrequencyS else []

/-- `current_slot`. -/
def slotDivisors (now : UInt32) (s : Queue.State) : List Nat :=
  refreshDivisors s.mac s.macState now ++
    if inActiveWindow (refreshWindow s.mac s.macState now) now then [s.mac.slotDuration.toNat]
    else []

/-- `recv` and `flush`. -/
def radioDivisors (now : UInt32) (s : Queue.State) : List Nat :=
  if s.initialized = false then [] else refreshDivisors s.mac s.macState now

def epochDivisors (slot : UInt8) (now : UInt32) (s : Queue.State) : List Nat :=
  if s.initialized = false then []
  else if s.mac.superframeSlotCount ≤ slot then []
  else
    let current := (currentSlot s.mac s.macState now).1
    slotDivisors now s ++
      if current < 0 ∨ (slot.toNat : Int) < current then
        intervalDivisors s.mac.superframeFrequencyS
      else if slot.toNat - current.toNat = 0 then []
      else [s.mac.slotDuration.toNat]

end Link

/-- `vtdma_window_size`. -/
def windowDivisors (n : Node) : List Nat := [n.mac.reuseDistance.toNat]

def prepareDivisors (n : Node) : List Nat := windowDivisors n ++ [n.mac.reuseDistance.toNat]

/-- `rand_delay_ms`. -/
def delayDivisors (low high : UInt32) : List Nat := [(high - low + 1).toNat]

/-- `accept` takes the window size before it looks for a slot that the follower has already. -/
def acceptDivisors (n : Node) : List Nat :=
  if n.state.initialized = false then [] else windowDivisors n

def flushDivisors (now : UInt32) (n : Node) : List Nat :=
  if n.state.initialized = false then [] else radioDivisors now n.link

/-- A flush that follows a message queued. -/
def flushAfter (now : UInt32) (r : RC × Node) : List Nat :=
  if r.1 = .ok then flushDivisors now r.2 else []

def initDivisors (p : InitParams) (now : UInt32) (n : Node) : List Nat :=
  if p.slotCount < p.mac.superframeSlotCount.toNat then []
  else if p.mac.superframeSlotCount < 1 then []
  else if p.mac.superframeSlotS < 1 then []
  else
    refreshDivisors p.mac n.link.macState now ++
      if p.node.address = GATEWAY_ADDR then
        prepareDivisors (configured p (Queue.init p.mac p.link now n.link).2 n.state)
      else []

section Advertise

def startDiscoveryDivisors (n : Node) : List Nat :=
  if GATEWAY_RING = n.state.ring then [] else delayDivisors 0 (discoveryMs n.mac / 4)

def discoveryDivisors (inp : Input) (l : Discovery.DiscoveryLocals) (n : Node) : List Nat :=
  let tryToAnnounce :=
    l.hasRingInfo && (!l.announced && l.announceDeadline.reached (inp.millis 1))
  let h := (Discovery.received inp n).foldl (Discovery.hear inp l)
    ⟨n.state, l.hasRingInfo, tryToAnnounce, 2⟩
  let n' := { Discovery.afterRecv inp n with state := h.state.updateRingFromNeighbors }
  radioDivisors (inp.now 0) n.link ++
    if h.tryToAnnounce then flushAfter (inp.now 2) (sendHeartbeat (inp.now 1) n') else []

def startRoundDivisors (inp : Input) (round : Nat) (earlier : Bool) (n : Node) : List Nat :=
  (if volunteers (inp.rand 0) (UInt8.ofNat round) n.state && !earlier then prepareDivisors n
    else []) ++
    delayDivisors 0 (roundMs n.mac)

def announcementDivisors (inp : Input) (l : AnnounceLocals) (n : Node) : List Nat :=
  radioDivisors (inp.now 0) n.link ++
    if l.needToAnnounce && l.announceDeadline.reached (inp.millis 1) then
      flushAfter (inp.now 2)
        (openCluster (inp.now 1) (Discovery.recv (inp.now 0) inp.arrival n).2)
    else []

def joinHeadDivisors (inp : Input) (l : JoinLocals) (n : Node) : List Nat :=
  if l.tryToFollow && l.followDeadline.reached (inp.millis 1) then
    if l.targetNode ≠ UNKNOWN_ADDR then
      flushDivisors (inp.now 1) (follow l.targetNode (inp.now 0) n).2
    else []
  else []

def answerDivisors (inp : Input) (isClusterhead : Bool) (m : Message) (n : Node) : List Nat :=
  match m.body with
  | .follow clusterhead _ =>
      if isClusterhead = true ∧ clusterhead = n.state.address then
        acceptDivisors n ++
          flushDivisors (inp.now 2) (accept m.src (inp.now 0) (inp.now 1) n).2
      else []
  | _ => []

def promoteDivisors (rand : UInt32) (n : Node) : List Nat :=
  if n.state.actsAsClusterhead = false ∧ announceClusterhead rand n.state = true then
    prepareDivisors n
  else []

def trySecondDivisors (durationMs : UInt32) (s : MultihopState) (l : JoinLocals) : List Nat :=
  if l.triedSecond then []
  else if (closer s l.candidates.second).1 ≠ UNKNOWN_ADDR then delayDivisors 0 (durationMs / 3)
  else []

def joinDivisors (inp : Input) (l : JoinLocals) (m : Message) (n : Node) (durationMs : UInt32) :
    List Nat :=
  match m.body with
  | .accept accepted follower startSlot relativeSlot _ =>
      if l.joined = false ∧ l.eligibleFollower = true ∧ m.src = l.targetNode ∧
          follower = n.state.address then
        if accepted ≠ 0 then
          windowDivisors n ++ promoteDivisors (inp.rand 0) (attach l startSlot relativeSlot n)
        else trySecondDivisors durationMs n.state l
      else []
  | _ => []

def joinMessageDivisors (inp : Input) (isClusterhead : Bool) (l : JoinLocals) (n : Node) :
    List Nat :=
  let (msg, link) := Queue.getmsg n.link
  let n := { n with link := link }
  match msg.bind decodeMsg with
  | none => []
  | some (m, _) =>
      answerDivisors inp isClusterhead m n ++
        joinDivisors inp l m (answerFollow inp isClusterhead m n).1
          (roundMs (answerFollow inp isClusterhead m n).1.mac)

def stepDivisors (inp : Input) (p : Proc) : List Nat :=
  match p.control with
  | .idle =>
      slotDivisors (inp.now 0) p.node.link ++
        if (activeSlot (inp.now 0) p.node).1 ≠ ADVERTISEMENT_SLOT.toNat then []
        else startDiscoveryDivisors p.node
  | .discovery l =>
      if l.phaseDeadline.reached (inp.millis 0) then startRoundDivisors inp 0 false p.node
      else discoveryDivisors inp l p.node
  | .announcement _ _ l =>
      if l.phaseDeadline.reached (inp.millis 0) then delayDivisors 0 (roundMs p.node.mac / 2)
      else announcementDivisors inp l p.node
  | .joining .head round isClusterhead l =>
      if l.phaseDeadline.reached (inp.millis 0) then
        if round + 1 < NUM_ADV_ROUNDS then startRoundDivisors inp (round + 1) isClusterhead p.node
        else []
      else joinHeadDivisors inp l p.node
  | .joining .recv _ _ _ => radioDivisors (inp.now 0) p.node.link
  | .joining .drain _ isClusterhead l => joinMessageDivisors inp isClusterhead l p.node
  | .done => []

def advertiseDivisors : List Input → Proc → List Nat
  | [], _ => []
  | inp :: inps, p => stepDivisors inp p ++ advertiseDivisors inps (step inp p).1

end Advertise

section Slots

def followerSendDivisors (slotNow flushNow : UInt32) (n : Node) : List Nat :=
  slotDivisors slotNow n.link ++
    if (activeSlot slotNow n).1 ≠ (mySlot n.state).toNat then []
    else radioDivisors flushNow (activeSlot slotNow n).2.link

def waitDivisors (chSlot : UInt8) : List WaitPass → Node → List Nat
  | [], _ => []
  | p :: passes, n =>
      let (rc, link) := Queue.recv p.recvNow p.arrival n.link
      let n' := { n with link := link }
      radioDivisors p.recvNow n.link ++
        if rc ≠ .ok then []
        else
          let (waiting, n') := takeFrame n'.link.rx n'
          if waiting then
            slotDivisors p.slotNow n'.link ++
              if (activeSlot p.slotNow n').1 = chSlot.toNat then
                waitDivisors chSlot passes (activeSlot p.slotNow n').2
              else []
          else []

def followerRecvDivisors (slotNow : UInt32) (passes : List WaitPass) (n : Node) : List Nat :=
  if UNKNOWN_ADDR = n.state.clusterheadAddr then []
  else
    slotDivisors slotNow n.link ++
      if (activeSlot slotNow n).1 ≠ n.state.upstreamAckSlot.toNat then []
      else waitDivisors n.state.upstreamAckSlot passes (setCdmaCode 0 (activeSlot slotNow n).2)

def clusterheadSendDivisors (inp : SendInput) (n : Node) : List Nat :=
  windowDivisors n ++ slotDivisors inp.slotNow n.link ++
    if (activeSlot inp.slotNow n).1 ≠ (sendSlot n).toNat then []
    else
      flushDivisors inp.flushNow
        (queueChMessages inp (setCdmaCode 0 (activeSlot inp.slotNow n).2))

def clusterheadRecvDivisors (inp : RecvInput) (n : Node) : List Nat :=
  slotDivisors inp.slotNow n.link ++ windowDivisors n ++
    if (listensTo (activeSlot inp.slotNow n).1 n).isSome then
      radioDivisors inp.recvNow (activeSlot inp.slotNow n).2.link
    else []

end Slots

def divisors (op : Op) (n : Node) : List Nat :=
  match op with
  | .epochAndOffset slot now =>
      if n.state.initialized = false then [] else epochDivisors slot now n.link
  | .advertisementSlot now =>
      if n.state.initialized = false then [] else epochDivisors ADVERTISEMENT_SLOT now n.link
  | .clusterheadSlot now =>
      if UNKNOWN_ADDR = n.state.clusterheadAddr then []
      else if n.state.initialized = false then []
      else epochDivisors n.state.downstreamStartSlot now n.link
  | .mySlotTime now =>
      if UNKNOWN_ADDR = n.state.clusterheadAddr then []
      else if n.state.initialized = false then []
      else epochDivisors (mySlot n.state) now n.link
  | .accept _ _ _ => acceptDivisors n
  | .doAdvertise inps => advertiseDivisors inps ⟨.idle, n⟩
  | .doFollowerSend slotNow flushNow _ => followerSendDivisors slotNow flushNow n
  | .doFollowerRecv slotNow passes => followerRecvDivisors slotNow passes n
  | .doClusterheadSend inp => clusterheadSendDivisors inp n
  | .doClusterheadRecv inp => clusterheadRecvDivisors inp n
  | .flush now _ => flushDivisors now n
  | .setClusterheadProbability _ | .openCluster _ | .follow _ _ | .closeCluster _ _
  | .sendAcks _ _ _ | .sendHeartbeat _ | .sendDatagram _ _ => []

def Nonzero (ds : List Nat) : Prop := ∀ d ∈ ds, d ≠ 0

/-- No step of `init` and no later call divides by zero. -/
def NeverByZero (p : InitParams) (now : UInt32) (n : Node) : Prop :=
  Nonzero (initDivisors p now n) ∧
    ∀ ops op, Nonzero (divisors op (Api.runOps ops (init p now n).2))

/-- Every ring gets a window of at least one slot, between slot 1 and the last one, and so are the
slots at its two ends. -/
def WindowsInside (n : Node) : Prop :=
  ∀ ring : Ring,
    let m := prepareClusterhead { n with state := { n.state with ring := ring } }
    1 ≤ (vtdmaWindowSize m.mac).toNat ∧
      1 ≤ m.state.downstreamStartSlot.toNat ∧
      m.state.downstreamStartSlot.toNat ≤ n.mac.superframeSlotCount.toNat - 1 ∧
      1 ≤ (sendSlot m).toNat ∧ (sendSlot m).toNat ≤ n.mac.superframeSlotCount.toNat - 1

def EmptyWindow (w : MacState) : Prop := w.windowEnd ≤ w.windowStart

/-- The parameters for which nothing goes wrong: at least one slot for each of the `reuse_distance`
windows; a slot length that wraps to 0 only matters over a window cached by an earlier `init`. -/
structure Valid (p : InitParams) (now : UInt32) (n : Node) : Prop where
  reuse : 1 ≤ p.mac.reuseDistance.toNat
  slots : p.mac.reuseDistance.toNat ≤ p.mac.superframeSlotCount.toNat - 1
  window : p.mac.slotDuration = 0 → EmptyWindow (refreshWindow p.mac n.link.macState now)

section Nonzero

variable {ds ds' : List Nat}

private theorem nonzero_nil : Nonzero [] := fun _ h => absurd h List.not_mem_nil

private theorem nonzero_singleton {d : Nat} (h : d ≠ 0) : Nonzero [d] := by
  intro d' hd
  rwa [List.mem_singleton.mp hd]

private theorem Nonzero.append (h : Nonzero ds) (h' : Nonzero ds') : Nonzero (ds ++ ds') := by
  intro d hd
  cases List.mem_append.mp hd with
  | inl hd => exact h d hd
  | inr hd => exact h' d hd

private theorem nonzero_ite {P : Prop} [Decidable P] (h : P → Nonzero ds) (h' : ¬ P → Nonzero ds') :
    Nonzero (if P then ds else ds') := by
  split_ifs with hP
  · exact h hP
  · exact h' hP

end Nonzero

/-- A state of the link layer under parameters that are safe to divide by. -/
structure Sane (s : Queue.State) : Prop where
  reuse : s.mac.reuseDistance.toNat ≠ 0
  window : s.mac.slotDuration = 0 → EmptyWindow s.macState

section Link

variable {s s' : Queue.State}

private theorem refreshWindow_empty {mac : MacParams} (hd : mac.slotDuration = 0) {w : MacState}
    (now : UInt32) (h : EmptyWindow w) : EmptyWindow (refreshWindow mac w now) := by
  rw [refreshWindow]
  split_ifs
  · rw [MacParams.windowLength, hd, UInt32.zero_mul]
    dsimp only [EmptyWindow]
    rw [UInt32.add_zero]
    exact UInt32.le_refl _
  · exact h

private theorem Sane.ticks (h : Sane s) (ht : Ticks s s') : Sane s' := by
  refine ⟨?_, ?_⟩
  · rw [ht.mac]
    exact h.reuse
  · intro hd
    rw [ht.mac] at hd
    exact ht.windows EmptyWindow (fun w now hw => refreshWindow_empty hd now hw) (h.window hd)

private theorem Sane.duration (h : Sane s) {now : UInt32}
    (ha : inActiveWindow s.macState now = true) : s.mac.slotDuration.toNat ≠ 0 := by
  intro hd
  have hempty := UInt32.le_iff_toNat_le.mp (h.window (UInt32.toNat_inj.mp hd))
  have hin := inActiveWindow_iff.mp ha
  omega

private theorem interval_nonzero (interval : UInt32) : Nonzero (intervalDivisors interval) := by
  rw [intervalDivisors]
  apply nonzero_ite
  · intro _
    exact nonzero_nil
  · intro hne
    exact nonzero_singleton fun hz => hne (UInt32.toNat_inj.mp hz)

private theorem refresh_nonzero (mac : MacParams) (w : MacState) (now : UInt32) :
    Nonzero (refreshDivisors mac w now) :=
  nonzero_ite (fun _ => interval_nonzero _) fun _ => nonzero_nil

private theorem radio_nonzero (now : UInt32) (s : Queue.State) : Nonzero (radioDivisors now s) :=
  nonzero_ite (fun _ => nonzero_nil) fun _ => refresh_nonzero _ _ _

private theorem Sane.slot (h : Sane s) (now : UInt32) : Nonzero (slotDivisors now s) := by
  have hnow : Sane (Queue.refreshed now s) := h.ticks (Ticks.refreshed now s)
  refine (refresh_nonzero _ _ _).append (nonzero_ite ?_ fun _ => nonzero_nil)
  intro ha
  exact nonzero_singleton (hnow.duration ha)

private theorem Sane.epoch (h : Sane s) (slot : UInt8) (now : UInt32) :
    Nonzero (epochDivisors slot now s) := by
  have hnow : Sane (Queue.refreshed now s) := h.ticks (Ticks.refreshed now s)
  refine nonzero_ite (fun _ => nonzero_nil) fun _ => nonzero_ite (fun _ => nonzero_nil) fun _ => ?_
  refine (h.slot now).append (nonzero_ite (fun _ => interval_nonzero _) fun hlate =>
    nonzero_ite (fun _ => nonzero_nil) fun _ => ?_)
  refine nonzero_singleton (@Sane.duration (Queue.refreshed now s) hnow now ?_)
  -- outside the window the slot found is negative
  by_contra hout
  apply hlate
  left
  change slotOf s.mac (Queue.refreshed now s).macState now < 0
  rw [slotOf, if_neg hout]
  decide

end Link

section Calls

variable {n : Node}

private theorem window_nonzero (h : Sane n.link) :
    Nonzero (windowDivisors n) := nonzero_singleton h.reuse

private theorem prepare_nonzero (h : Sane n.link) : Nonzero (prepareDivisors n) :=
  (window_nonzero h).append (nonzero_singleton h.reuse)

private theorem flush_nonzero (now : UInt32) (n : Node) : Nonzero (flushDivisors now n) :=
  nonzero_ite (fun _ => nonzero_nil) fun _ => radio_nonzero _ _

private theorem flushAfter_nonzero (now : UInt32) (r : RC × Node) : Nonzero (flushAfter now r) :=
  nonzero_ite (fun _ => flush_nonzero _ _) fun _ => nonzero_nil

private theorem accept_nonzero (h : Sane n.link) : Nonzero (acceptDivisors n) :=
  nonzero_ite (fun _ => nonzero_nil) fun _ => window_nonzero h

private theorem delay_nonzero {high : UInt32} (h : high.toNat + 1 < 2 ^ 32) :
    Nonzero (delayDivisors 0 high) := by
  apply nonzero_singleton
  rw [UInt32.toNat_add, UInt32.sub_zero]
  change (high.toNat + 1) % 2 ^ 32 ≠ 0
  omega

private theorem div_bound (x : UInt32) {k : UInt32} (hk : 2 ≤ k.toNat) :
    (x / k).toNat + 1 < 2 ^ 32 := by
  have hlt := x.toNat_lt
  have hle : x.toNat / k.toNat ≤ x.toNat / 2 := Nat.div_le_div_left hk (by omega)
  rw [UInt32.toNat_div]
  omega

private theorem epochs_nonzero (h : Sane n.link) (slot : UInt8) (now : UInt32) :
    Nonzero (if n.state.initialized = false then [] else epochDivisors slot now n.link) :=
  nonzero_ite (fun _ => nonzero_nil) fun _ => h.epoch slot now

end Calls

section Advertise

variable {n : Node}

private theorem startDiscovery_nonzero (n : Node) : Nonzero (startDiscoveryDivisors n) :=
  nonzero_ite (fun _ => nonzero_nil) fun _ => delay_nonzero (div_bound _ (by decide))

private theorem discovery_nonzero (inp : Input) (l : Discovery.DiscoveryLocals) (n : Node) :
    Nonzero (discoveryDivisors inp l n) :=
  (radio_nonzero _ _).append (nonzero_ite (fun _ => flushAfter_nonzero _ _) fun _ => nonzero_nil)

private theorem startRound_nonzero (h : Sane n.link) (inp : Input) (round : Nat) (earlier : Bool) :
    Nonzero (startRoundDivisors inp round earlier n) :=
  (nonzero_ite (fun _ => prepare_nonzero h) fun _ => nonzero_nil).append
    (delay_nonzero (div_bound _ (by decide)))

private theorem announcement_nonzero (inp : Input) (l : AnnounceLocals) (n : Node) :
    Nonzero (announcementDivisors inp l n) :=
  (radio_nonzero _ _).append (nonzero_ite (fun _ => flushAfter_nonzero _ _) fun _ => nonzero_nil)

private theorem joinHead_nonzero (inp : Input) (l : JoinLocals) (n : Node) :
    Nonzero (joinHeadDivisors inp l n) :=
  nonzero_ite (fun _ => nonzero_ite (fun _ => flush_nonzero _ _) fun _ => nonzero_nil)
    fun _ => nonzero_nil

private theorem answer_nonzero (h : Sane n.link) (inp : Input) (isClusterhead : Bool)
    (m : Message) : Nonzero (answerDivisors inp isClusterhead m n) := by
  rw [answerDivisors]
  split
  · exact nonzero_ite (fun _ => (accept_nonzero h).append (flush_nonzero _ _))
      fun _ => nonzero_nil
  · exact nonzero_nil

private theorem join_nonzero (h : Sane n.link) (inp : Input) (l : JoinLocals) (m : Message)
    (durationMs : UInt32) : Nonzero (joinDivisors inp l m n durationMs) := by
  have hpromote (startSlot relativeSlot : UInt8) :
      Nonzero (promoteDivisors (inp.rand 0) (attach l startSlot relativeSlot n)) :=
    nonzero_ite (fun _ => prepare_nonzero (n := attach l startSlot relativeSlot n) h)
      fun _ => nonzero_nil
  have hsecond : Nonzero (trySecondDivisors durationMs n.state l) :=
    nonzero_ite (fun _ => nonzero_nil) fun _ =>
      nonzero_ite (fun _ => delay_nonzero (div_bound _ (by decide))) fun _ => nonzero_nil
  rw [joinDivisors]
  split
  · exact nonzero_ite (fun _ => nonzero_ite
      (fun _ => (window_nonzero h).append (hpromote _ _)) fun _ => hsecond) fun _ => nonzero_nil
  · exact nonzero_nil

private theorem joinMessage_nonzero (h : Sane n.link) (inp : Input) (isClusterhead : Bool)
    (l : JoinLocals) : Nonzero (joinMessageDivisors inp isClusterhead l n) := by
  have hmsg : Sane (Queue.getmsg n.link).2 := h.ticks (getmsg_ticks _)
  rw [joinMessageDivisors]
  dsimp only
  cases (Queue.getmsg n.link).1.bind decodeMsg with
  | none => exact nonzero_nil
  | some r =>
      have hanswer := hmsg.ticks
        (answerFollow_ticks inp isClusterhead r.1 { n with link := (Queue.getmsg n.link).2 })
      exact (answer_nonzero (n := { n with link := (Queue.getmsg n.link).2 }) hmsg inp
        isClusterhead r.1).append (join_nonzero hanswer inp l r.1 _)

private theorem step_nonzero {p : Proc} (h : Sane p.node.link) (inp : Input) :
    Nonzero (stepDivisors inp p) := by
  obtain ⟨control, n⟩ := p
  cases control with
  | idle =>
      exact (h.slot _).append (nonzero_ite (fun _ => nonzero_nil) fun _ =>
        startDiscovery_nonzero n)
  | discovery l =>
      exact nonzero_ite (fun _ => startRound_nonzero h inp 0 false)
        fun _ => discovery_nonzero inp l n
  | announcement round earlier l =>
      exact nonzero_ite (fun _ => delay_nonzero (div_bound _ (by decide)))
        fun _ => announcement_nonzero inp l n
  | joining stage round isClusterhead l =>
      cases stage with
      | head =>
          exact nonzero_ite (fun _ => nonzero_ite
            (fun _ => startRound_nonzero h inp (round + 1) isClusterhead) fun _ => nonzero_nil)
              fun _ => joinHead_nonzero inp l n
      | recv => exact radio_nonzero _ _
      | drain => exact joinMessage_nonzero h inp isClusterhead l
  | done => exact nonzero_nil

private theorem advertise_nonzero (inps : List Input) {p : Proc} (h : Sane p.node.link) :
    Nonzero (advertiseDivisors inps p) := by
  induction inps generalizing p with
  | nil => exact nonzero_nil
  | cons inp inps ih => exact (step_nonzero h inp).append (ih (h.ticks (step_ticks inp p)))

end Advertise

section Slots

variable {n : Node}

private theorem followerSend_nonzero (h : Sane n.link) (slotNow flushNow : UInt32) :
    Nonzero (followerSendDivisors slotNow flushNow n) :=
  (h.slot _).append (nonzero_ite (fun _ => nonzero_nil) fun _ => radio_nonzero _ _)

private theorem wait_nonzero (h : Sane n.link) (chSlot : UInt8) (passes : List WaitPass) :
    Nonzero (waitDivisors chSlot passes n) := by
  induction passes generalizing n with
  | nil => exact nonzero_nil
  | cons p passes ih =>
      have hrecv : Sane (Queue.recv p.recvNow p.arrival n.link).2 := h.ticks (recv_ticks ..)
      rw [waitDivisors]
      dsimp only
      refine (radio_nonzero _ _).append (nonzero_ite (fun _ => nonzero_nil) fun _ => ?_)
      have htake := hrecv.ticks (takeFrame_ticks (Queue.recv p.recvNow p.arrival n.link).2.rx
        { n with link := (Queue.recv p.recvNow p.arrival n.link).2 })
      refine nonzero_ite (fun _ => ?_) fun _ => nonzero_nil
      refine (htake.slot _).append (nonzero_ite (fun _ => ?_) fun _ => nonzero_nil)
      exact ih (htake.ticks (activeSlot_ticks ..))

private theorem followerRecv_nonzero (h : Sane n.link) (slotNow : UInt32) (passes : List WaitPass) :
    Nonzero (followerRecvDivisors slotNow passes n) := by
  have hslot : Sane (setCdmaCode 0 (activeSlot slotNow n).2).link :=
    h.ticks ((activeSlot_ticks slotNow n).trans (Ticks.of_eq rfl rfl))
  exact nonzero_ite (fun _ => nonzero_nil) fun _ => (h.slot _).append
    (nonzero_ite (fun _ => nonzero_nil) fun _ => wait_nonzero hslot _ _)

private theorem clusterheadSend_nonzero (h : Sane n.link) (inp : SendInput) :
    Nonzero (clusterheadSendDivisors inp n) :=
  ((window_nonzero h).append (h.slot _)).append
    (nonzero_ite (fun _ => nonzero_nil) fun _ => flush_nonzero _ _)

private theorem clusterheadRecv_nonzero (h : Sane n.link) (inp : RecvInput) :
    Nonzero (clusterheadRecvDivisors inp n) :=
  ((h.slot _).append (window_nonzero h)).append
    (nonzero_ite (fun _ => radio_nonzero _ _) fun _ => nonzero_nil)

end Slots

private theorem divisors_nonzero {n : Node} (h : Sane n.link) (op : Op) :
    Nonzero (divisors op n) := by
  cases op with
  | epochAndOffset slot now => exact epochs_nonzero h _ _
  | advertisementSlot now => exact epochs_nonzero h _ _
  | clusterheadSlot now => exact nonzero_ite (fun _ => nonzero_nil) fun _ => epochs_nonzero h _ _
  | mySlotTime now => exact nonzero_ite (fun _ => nonzero_nil) fun _ => epochs_nonzero h _ _
  | accept follower remote stamp => exact accept_nonzero h
  | doAdvertise inps => exact advertise_nonzero inps (p := ⟨.idle, n⟩) h
  | doFollowerSend slotNow flushNow sent => exact followerSend_nonzero h slotNow flushNow
  | doFollowerRecv slotNow passes => exact followerRecv_nonzero h slotNow passes
  | doClusterheadSend inp => exact clusterheadSend_nonzero h inp
  | doClusterheadRecv inp => exact clusterheadRecv_nonzero h inp
  | flush now sent => exact flush_nonzero now n
  | setClusterheadProbability p => exact nonzero_nil
  | openCluster stamp => exact nonzero_nil
  | follow clusterhead stamp => exact nonzero_nil
  | closeCluster renominate stamp => exact nonzero_nil
  | sendAcks ackStart ackEnd stamp => exact nonzero_nil
  | sendHeartbeat stamp => exact nonzero_nil
  | sendDatagram stamp iter => exact nonzero_nil

section Init

variable {p : InitParams} {now : UInt32} {n : Node}

private theorem init_link (hok : (init p now n).1 = .ok) :
    (init p now n).2.link.initialized = true ∧ (init p now n).2.mac = p.mac ∧
      (init p now n).2.link.macState = refreshWindow p.mac n.link.macState now := by
  have hlink (link : Queue.State) (s : MultihopState) :
      (if p.node.address = GATEWAY_ADDR then prepareClusterhead (configured p link s)
        else configured p link s).link = link := by
    split_ifs <;> rfl
  unfold init at hok ⊢
  by_cases hfits : p.slotCount < p.mac.superframeSlotCount.toNat
  · rw [if_pos hfits] at hok
    exact absurd hok (by simp)
  rw [if_neg hfits] at hok ⊢
  dsimp only at hok ⊢
  by_cases hrc : (Queue.init p.mac p.link now n.link).1 = .ok
  · rw [if_neg (not_not.mpr hrc), Node.mac]
    dsimp only
    rw [hlink]
    unfold Queue.init at hrc ⊢
    split_ifs at hrc ⊢
    exact ⟨rfl, rfl, rfl⟩
  · rw [if_pos hrc] at hok
    exact absurd hok (by simp)

private theorem Valid.sane (h : Valid p now n) (hok : (init p now n).1 = .ok) :
    Sane (init p now n).2.link := by
  obtain ⟨-, hmac, hwindow⟩ := init_link hok
  have hmac : (init p now n).2.link.mac = p.mac := hmac
  refine ⟨?_, ?_⟩
  · rw [hmac]
    have := h.reuse
    omega
  · rw [hmac, hwindow]
    exact h.window

private theorem Valid.never (h : Valid p now n) (hok : (init p now n).1 = .ok) :
    NeverByZero p now n := by
  have hinit : Nonzero (initDivisors p now n) := by
    refine nonzero_ite (fun _ => nonzero_nil) fun _ => nonzero_ite (fun _ => nonzero_nil)
      fun _ => nonzero_ite (fun _ => nonzero_nil) fun hlength => ?_
    refine (refresh_nonzero _ _ _).append (nonzero_ite (fun _ => ?_) fun _ => nonzero_nil)
    have hreuse : (configured p (Queue.init p.mac p.link now n.link).2 n.state).mac.reuseDistance =
        p.mac.reuseDistance := by
      obtain ⟨hfits, hcount, -⟩ := init_ok hok
      have hcount : ¬ p.mac.superframeSlotCount < 1 := UInt8.not_lt.mpr hcount
      change (Queue.init p.mac p.link now n.link).2.mac.reuseDistance = _
      rw [Queue.init, if_neg hcount, if_neg hlength]
    have hpos := h.reuse
    refine (nonzero_singleton ?_).append (nonzero_singleton ?_) <;>
    · rw [hreuse]
      omega
  refine ⟨hinit, ?_⟩
  intro ops op
  exact divisors_nonzero ((h.sane hok).ticks (runOps_ticks ops _)) op

private theorem Valid.windows (h : Valid p now n) {m : Node} (hmac : m.mac = p.mac) :
    WindowsInside m := by
  have hreuse : 1 ≤ m.mac.reuseDistance := by
    rw [UInt8.le_iff_toNat_le, hmac]
    exact h.reuse
  have hsize : 1 ≤ Layout.windowSize m.mac := by
    rw [Layout.windowSize, hmac, Nat.one_le_div_iff h.reuse]
    exact h.slots
  intro ring head
  have hw : Allocation.Windowed head.mac := Layout.windowed (n := m) hreuse hsize
  obtain ⟨hstart, hfit⟩ := Layout.windowStart_eq (n := head) hw
  have hlast := Layout.sendSlot_toNat (f := head) hw hsize rfl rfl
  have hown : head.state.downstreamStartSlot.toNat = Layout.windowStart head := rfl
  have hwindow : (vtdmaWindowSize head.mac).toNat = Layout.windowSize m.mac :=
    Allocation.vtdmaWindowSize_toNat hw
  have hmac' : head.mac = m.mac := rfl
  rw [hmac'] at hstart hfit hlast
  rw [hwindow, hown, hlast]
  exact ⟨hsize, by omega, by omega, by omega, by omega⟩

private theorem NeverByZero.reuse (h : NeverByZero p now n) (hok : (init p now n).1 = .ok) :
    1 ≤ p.mac.reuseDistance.toNat := by
  have hne := h.2 [] (.doClusterheadRecv ⟨0, 0, .timedOut⟩) (init p now n).2.mac.reuseDistance.toNat
    (List.mem_append_left _ (List.mem_append_right _ (List.mem_singleton.mpr rfl)))
  rw [(init_link hok).2.1] at hne
  omega

private theorem NeverByZero.window (h : NeverByZero p now n) (hok : (init p now n).1 = .ok)
    (hd : p.mac.slotDuration = 0) : EmptyWindow (refreshWindow p.mac n.link.macState now) := by
  obtain ⟨-, hmac, hwindow⟩ := init_link hok
  have hmac : (init p now n).2.link.mac = p.mac := hmac
  by_contra hopen
  have hopen := UInt32.lt_iff_toNat_lt.mp (UInt32.not_le.mp hopen)
  generalize hw : refreshWindow p.mac n.link.macState now = w at hwindow hopen
  have hkept : refreshWindow p.mac w w.windowStart = w := refreshWindow_of_before hopen
  have hactive : inActiveWindow w w.windowStart = true :=
    inActiveWindow_iff.mpr ⟨le_refl _, hopen⟩
  refine h.2 [] (.doFollowerSend w.windowStart 0 false) p.mac.slotDuration.toNat ?_ (by simp [hd])
  change _ ∈ followerSendDivisors w.windowStart 0 (init p now n).2
  refine List.mem_append_left _ (List.mem_append_right _ ?_)
  rw [hmac, hwindow, hkept, if_pos hactive]
  exact List.mem_singleton.mpr rfl

private theorem WindowsInside.slots (h : WindowsInside n) (hw : Allocation.Windowed n.mac) :
    n.mac.reuseDistance.toNat ≤ n.mac.superframeSlotCount.toNat - 1 := by
  have hsize : 1 ≤ (vtdmaWindowSize n.mac).toNat := (h 0).1
  rw [Allocation.vtdmaWindowSize_toNat hw] at hsize
  exact (Nat.one_le_div_iff (UInt8.le_iff_toNat_le.mp hw.reuse)).mp hsize

end Init

private theorem valid_iff_of_boot {p : InitParams} {now : UInt32} {n : Node}
    (hboot : n.link.macState = MacState.zero) :
    Valid p now n ↔ 1 ≤ p.mac.reuseDistance.toNat ∧
      p.mac.reuseDistance.toNat ≤ p.mac.superframeSlotCount.toNat - 1 := by
  constructor
  · intro h
    exact ⟨h.reuse, h.slots⟩
  · rintro ⟨hreuse, hslots⟩
    refine ⟨hreuse, hslots, ?_⟩
    intro hd
    rw [hboot]
    exact refreshWindow_empty hd now (UInt32.le_refl 0)

/-- A successful `init` is safe from divisions by zero and gives every ring a window exactly for
the valid parameters. -/
theorem init_safe_iff (p : InitParams) (now : UInt32) (n : Node)
    (hok : (init p now n).1 = .ok) :
    (NeverByZero p now n ∧ WindowsInside (init p now n).2) ↔ Valid p now n := by
  obtain ⟨-, hmac, -⟩ := init_link hok
  constructor
  · rintro ⟨hnever, hinside⟩
    have hreuse := hnever.reuse hok
    have hw : Allocation.Windowed (init p now n).2.mac := by
      rw [hmac]
      exact ⟨UInt8.le_iff_toNat_le.mpr hreuse, (init_ok hok).2.1⟩
    have hslots := hinside.slots hw
    rw [hmac] at hslots
    exact ⟨hreuse, hslots, hnever.window hok⟩
  · intro h
    exact ⟨h.never hok, h.windows hmac⟩

/-- The gateway of the node program. -/
theorem gateway_init_safe :
    NeverByZero Bounds.gatewayParams 71 Bounds.powerOn ∧
      WindowsInside (init Bounds.gatewayParams 71 Bounds.powerOn).2 :=
  (init_safe_iff Bounds.gatewayParams 71 Bounds.powerOn (by decide)).mpr
    ((valid_iff_of_boot rfl).mpr ⟨by decide, by decide⟩)

/-- The parameters of a node that is no gateway, with another reuse distance. -/
def nodeParams (reuseDistance : UInt8) : InitParams :=
  { Bounds.gatewayParams with
    node := ⟨1, 0⟩
    mac := { setupMac with reuseDistance := reuseDistance } }

/-- `init` takes a reuse distance of 0, and the next `do_clusterhead_recv` divides by it; one of 22
leaves 21 slots no window, and the ack slot is the advertising slot. -/
theorem reuse_distance_unchecked :
    ((init (nodeParams 0) 71 Bounds.powerOn).1 = .ok ∧
        ¬ NeverByZero (nodeParams 0) 71 Bounds.powerOn) ∧
      (init (nodeParams 22) 71 Bounds.powerOn).1 = .ok ∧
        ¬ WindowsInside (init (nodeParams 22) 71 Bounds.powerOn).2 ∧
        sendSlot (prepareClusterhead (init (nodeParams 22) 71 Bounds.powerOn).2) =
          ADVERTISEMENT_SLOT := by
  refine ⟨⟨by decide, ?_⟩, by decide, ?_, by decide⟩
  · intro h
    exact absurd (h.reuse (by decide)) (by decide)
  · intro h
    exact absurd (h 0).1 (by decide)

end LoraMultihop.Multihop.Divisors
