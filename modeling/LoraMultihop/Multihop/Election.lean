/- digest: Which nodes end the advertising slot as clusterheads. -/

import LoraMultihop.Multihop.Advertise

set_option autoImplicit false
set_option relaxedAutoImplicit false

namespace LoraMultihop.Multihop.Election

open LoraMultihop.Foundation.ByteMemory (Bytes)
open LoraMultihop.Net.Params
open LoraMultihop.Link
open LoraMultihop.Multihop.Messages
open LoraMultihop.Multihop.State
open LoraMultihop.Multihop.Sending
open LoraMultihop.Multihop.Discovery
open LoraMultihop.Multihop.Advertise

/-- What has happened to a node in this superframe: it flushed its OpenCluster, it withdrew in favor
of a peer, its round ended before it got to announce itself, it was promoted while joining. -/
structure Log where
  announced : Bool
  withdrew : Bool
  unheard : Bool
  promoted : Bool
  deriving DecidableEq

def Log.empty : Log := ⟨false, false, false, false⟩

/-- Something in the log can have made the node a clusterhead. -/
def Log.Explains (log : Log) : Prop :=
  log.announced = true ∨ log.promoted = true ∨ log.withdrew = true ∨ log.unheard = true

/-- The node's target has accepted it, it is no clusterhead yet, and it wins the draw. -/
def promotes (inp : Input) (l : JoinLocals) (n : Node) : Bool :=
  match (Queue.getmsg n.link).1.bind decodeMsg with
  | some (⟨_, src, .accept accepted follower _ _ _⟩, _) =>
      decide (l.joined = false ∧ l.eligibleFollower = true ∧ src = l.targetNode ∧
        follower = n.state.address ∧ accepted ≠ 0 ∧ n.state.actsAsClusterhead = false ∧
          announceClusterhead (inp.rand 0) n.state = true)
  | _ => false

def note (inp : Input) (p : Proc) (log : Log) : Log :=
  match p.control with
  | .announcement _ _ l =>
      if l.phaseDeadline.reached (inp.millis 0) then
        { log with unheard := log.unheard || l.needToAnnounce }
      else
        { log with
          announced := log.announced || announces inp l (recv (inp.now 0) inp.arrival p.node).2
          withdrew :=
            log.withdrew || l.isClusterhead && !(announcementPass inp l p.node).1.isClusterhead }
  | .joining .drain _ _ l => { log with promoted := log.promoted || promotes inp l p.node }
  | _ => log

def logOf : List Input → Proc → Log → Log
  | [], _, log => log
  | inp :: inps, p, log => logOf inps (step inp p).1 (note inp p log)

def raisedCredit (credit : UInt8) : UInt8 := if credit < 255 then credit + 1 else credit

def Pending : Control → Prop
  | .announcement _ _ l => l.needToAnnounce = true
  | _ => False

/-- Nothing but an announcement, a promotion or a lapse makes a clusterhead. -/
structure Explained (credit : UInt8) (p : Proc) (log : Log) : Prop where
  gateway : p.node.state.role ≠ .gateway
  started : p.control ≠ .idle → p.node.state.role = .follower ∨ p.node.state.role = .clusterhead
  volunteer : ∀ round earlier l, p.control = .announcement round earlier l →
    l.needToAnnounce = true → l.isClusterhead = true
  reason : p.control ≠ .idle → p.node.state.role = .clusterhead →
    log.Explains ∨ Pending p.control
  credit : p.node.state.chCredit =
    if p.control.isDone then
      if p.node.state.role = .clusterhead then 0 else raisedCredit credit
    else credit

section Steps

variable {credit : UInt8} {inp : Input} {log : Log} {n : Node}

private theorem startAnnouncement_role (inp : Input) (durationMs : UInt32) (eligible : Ring)
    (earlier : Bool) (n : Node) (hrole : n.state.role ≠ .gateway) :
    let r := startAnnouncement inp durationMs eligible earlier n
    r.2.state.chCredit = n.state.chCredit ∧
      (r.2.state.role = n.state.role ∧ r.1.needToAnnounce = false ∨
        r.2.state.role = .clusterhead ∧ r.1.needToAnnounce = true ∧ r.1.isClusterhead = true) := by
  intro r
  unfold r
  rw [startAnnouncement]
  dsimp only
  by_cases hnew : (volunteers (inp.rand 0) eligible n.state && !earlier) = true
  · rw [if_pos hnew, if_pos hrole]
    exact ⟨rfl, Or.inr ⟨rfl, hnew, (Bool.and_eq_true_iff.mp hnew).1⟩⟩
  · rw [if_neg hnew]
    exact ⟨rfl, Or.inl ⟨rfl, Bool.eq_false_iff.mpr hnew⟩⟩

private theorem Log.Explains.note (h : log.Explains) (inp : Input) (p : Proc) :
    (Election.note inp p log).Explains := by
  obtain ⟨control, n⟩ := p
  unfold Log.Explains at h ⊢
  cases control with
  | announcement round earlier l =>
      rw [Election.note]
      dsimp only
      split_ifs
      · rcases h with h | h | h | h <;> simp [h]
      · rcases h with h | h | h | h <;> simp [h]
  | joining stage round isClusterhead l =>
      cases stage with
      | head => exact h
      | recv => exact h
      | drain =>
          rw [Election.note]
          rcases h with h | h | h | h <;> simp [h]
  | idle => exact h
  | discovery l => exact h
  | done => exact h

private theorem explained_round {round : Nat} {earlier : Bool}
    (hgateway : n.state.role ≠ .gateway)
    (hstarted : n.state.role = .follower ∨ n.state.role = .clusterhead)
    (hreason : n.state.role = .clusterhead → log.Explains)
    (hcredit : n.state.chCredit = credit) :
    Explained credit (startRound inp round earlier n) log := by
  obtain ⟨hc, hrole⟩ := startAnnouncement_role inp (roundMs n.mac) (UInt8.ofNat round) earlier n
    hgateway
  refine ⟨?_, ?_, ?_, ?_, hc.trans hcredit⟩
  · rcases hrole with ⟨hr, -⟩ | ⟨hr, -⟩
    · intro h
      exact hgateway (hr.symm.trans h)
    · intro h
      exact absurd (hr.symm.trans h) (by simp)
  · intro _
    rcases hrole with ⟨hr, -⟩ | ⟨hr, -⟩
    · exact hstarted.imp hr.trans hr.trans
    · exact Or.inr hr
  · intro round' earlier' l hl hneed
    obtain ⟨-, -, rfl⟩ := Control.announcement.inj hl
    rcases hrole with ⟨-, hno⟩ | ⟨-, -, hch⟩
    · exact absurd (hno.symm.trans hneed) (by simp)
    · exact hch
  · intro _ hch
    rcases hrole with ⟨hr, -⟩ | ⟨-, hneed, -⟩
    · exact Or.inl (hreason (hr.symm.trans hch))
    · exact Or.inr hneed

private theorem Explained.keep {p p' : Proc} {log' : Log} (h : Explained credit p log)
    (hrole : p'.node.state.role = p.node.state.role)
    (hcredit : p'.node.state.chCredit = p.node.state.chCredit)
    (hidle : p'.control ≠ .idle → p.control ≠ .idle)
    (hdone : p'.control.isDone = p.control.isDone)
    (hvolunteer : ∀ round earlier l, p'.control = .announcement round earlier l →
      l.needToAnnounce = true → l.isClusterhead = true)
    (hreason : log.Explains ∨ Pending p.control → log'.Explains ∨ Pending p'.control) :
    Explained credit p' log' where
  gateway := hrole ▸ h.gateway
  started hi := hrole ▸ h.started (hidle hi)
  volunteer := hvolunteer
  reason hi hch := hreason (h.reason (hidle hi) (hrole ▸ hch))
  credit := by rw [hcredit, hdone, hrole, h.credit]

private theorem explained_announcement {round : Nat} {earlier : Bool} {l : AnnounceLocals}
    (h : Explained credit ⟨.announcement round earlier l, n⟩ log) :
    Explained credit (step inp ⟨.announcement round earlier l, n⟩).1
      (note inp ⟨.announcement round earlier l, n⟩ log) := by
  have hlog (hlog : log.Explains) := hlog.note inp ⟨.announcement round earlier l, n⟩
  rw [note] at hlog
  rw [step, note]
  dsimp only at hlog ⊢
  by_cases hend : l.phaseDeadline.reached (inp.millis 0) = true
  · rw [if_pos hend] at hlog
    rw [if_pos hend, if_pos hend]
    refine h.keep rfl rfl (fun _ => by simp) rfl (fun _ _ _ hl => by simp at hl) ?_
    rintro (hbefore | hneed)
    · exact Or.inl (hlog hbefore)
    · have hneed : l.needToAnnounce = true := hneed
      exact Or.inl (Or.inr (Or.inr (Or.inr (by simp [hneed]))))
  · rw [if_neg hend] at hlog
    rw [if_neg hend, if_neg hend]
    have hstate := announcementPass_state inp l n
    have hlocals := announcementPass_locals inp l n
    refine h.keep (congrArg MultihopState.role hstate) (congrArg MultihopState.chCredit hstate)
      (fun _ => by simp) rfl ?_ ?_
    · intro round' earlier' l' hl hneed'
      obtain ⟨-, -, rfl⟩ := Control.announcement.inj hl
      rcases hlocals with ⟨hch, hneed⟩ | ⟨-, -, hneed⟩
      · rw [hch]
        rw [hneed] at hneed'
        exact h.volunteer _ _ _ rfl (Bool.and_eq_true_iff.mp hneed').1
      · rw [hneed] at hneed'
        exact absurd hneed' (by simp)
    · rintro (hbefore | hneed)
      · exact Or.inl (hlog hbefore)
      · have hneed : l.needToAnnounce = true := hneed
        rcases hlocals with ⟨-, hneed'⟩ | ⟨hch, hch', -⟩
        · cases hann : announces inp l (recv (inp.now 0) inp.arrival n).2 with
          | true => exact Or.inl (Or.inl (by simp))
          | false => exact Or.inr (by rw [Pending, hneed', hann, hneed]; rfl)
        · exact Or.inl (Or.inr (Or.inr (Or.inl (by simp [hch, hch']))))

theorem answerFollow_role (inp : Input) (isClusterhead : Bool) (m : Message) (n : Node) :
    (answerFollow inp isClusterhead m n).1.state.role = n.state.role ∧
      (answerFollow inp isClusterhead m n).1.state.chCredit = n.state.chCredit := by
  rcases answerFollow_state inp isClusterhead m n with hs | ⟨-, hs⟩
  · rw [hs]
    exact ⟨rfl, rfl⟩
  · obtain ⟨table, count, hassign⟩ := assign_kept m.src n
    rw [hs, hassign]
    exact ⟨rfl, rfl⟩

private theorem join_role (inp : Input) (l : JoinLocals) (m : Message) (n : Node)
    (durationMs : UInt32) : (join inp l m n durationMs).2.2.state.chCredit = n.state.chCredit ∧
      ((join inp l m n durationMs).2.2.state.role = n.state.role ∨
        (∃ accepted start relative remote,
          m.body = .accept accepted n.state.address start relative remote ∧ accepted ≠ 0) ∧
          l.joined = false ∧ l.eligibleFollower = true ∧ m.src = l.targetNode ∧
          n.state.actsAsClusterhead = false ∧ announceClusterhead (inp.rand 0) n.state = true ∧
          (join inp l m n durationMs).2.2.state.role = .clusterhead) := by
  rcases join_cases inp l m n durationMs with h | ⟨-, h⟩ |
    ⟨accepted, start, relative, remote, hbody, haccepted, hsrc, heligible, hjoined, h⟩
  · rw [h]
    exact ⟨rfl, Or.inl rfl⟩
  · rw [h]
    exact ⟨rfl, Or.inl rfl⟩
  · rw [h]
    dsimp only
    rcases promote_cases (inp.rand 0) (attach l start relative n) with hp | ⟨hacts, hwins, hp⟩
    · rw [hp]
      exact ⟨rfl, Or.inl rfl⟩
    · rw [hp]
      exact ⟨rfl, Or.inr ⟨⟨accepted, start, relative, remote, hbody, haccepted⟩, hjoined,
        heligible, hsrc, hacts, hwins, rfl⟩⟩

private theorem answerFollow_accept {inp : Input} {isClusterhead : Bool} {m : Message} {n : Node}
    {accepted follower start relative : UInt8} {remote : UInt32}
    (hm : m.body = .accept accepted follower start relative remote) :
    answerFollow inp isClusterhead m n = (n, []) := by
  rw [answerFollow, hm]

private theorem joinMessage_role (inp : Input) (round : Nat) (isClusterhead : Bool) (l : JoinLocals)
    (n : Node) :
    let p := (joinMessage inp round isClusterhead l n).1
    (∃ stage l', p.control = .joining stage round isClusterhead l') ∧
      p.node.state.chCredit = n.state.chCredit ∧
      (p.node.state.role = n.state.role ∨
        promotes inp l n = true ∧ p.node.state.role = .clusterhead) := by
  intro p
  unfold p
  rw [joinMessage, promotes]
  dsimp only
  rcases hmsg : (Queue.getmsg n.link).1.bind decodeMsg with _ | ⟨m, tail⟩
  · exact ⟨⟨_, _, rfl⟩, rfl, Or.inl rfl⟩
  · dsimp only
    generalize hn : ({ n with link := (Queue.getmsg n.link).2 } : Node) = n'
    have hstate : n'.state = n.state := by rw [← hn]
    have hanswer := answerFollow_role inp isClusterhead m n'
    have hjoin := join_role inp l m (answerFollow inp isClusterhead m n').1
      (roundMs (answerFollow inp isClusterhead m n').1.mac)
    rw [hanswer.1, hanswer.2, hstate] at hjoin
    refine ⟨⟨_, _, rfl⟩, hjoin.1, hjoin.2.imp_right ?_⟩
    rintro ⟨⟨accepted, start, relative, remote, hbody, haccepted⟩, hjoined, heligible, hsrc, hacts,
      hwins, hrole⟩
    refine ⟨?_, hrole⟩
    rw [answerFollow_accept hbody, hstate] at hacts hwins
    obtain ⟨sequence, src, body⟩ := m
    dsimp only at hbody hsrc ⊢
    rw [hbody, answerFollow_accept (m := ⟨sequence, src, body⟩) hbody, hstate]
    exact decide_eq_true ⟨hjoined, heligible, hsrc, rfl, haccepted, hacts, hwins⟩

private theorem explained_message {round : Nat} {isClusterhead : Bool} {l : JoinLocals}
    (h : Explained credit ⟨.joining .drain round isClusterhead l, n⟩ log) :
    Explained credit (step inp ⟨.joining .drain round isClusterhead l, n⟩).1
      (note inp ⟨.joining .drain round isClusterhead l, n⟩ log) := by
  have hstep : step inp ⟨.joining .drain round isClusterhead l, n⟩ =
      joinMessage inp round isClusterhead l n := rfl
  obtain ⟨⟨stage, l', hcontrol⟩, hcredit, hrole⟩ := joinMessage_role inp round isClusterhead l n
  rw [hstep]
  rcases hrole with hsame | ⟨hpromotes, hch⟩
  · refine h.keep hsame hcredit (fun _ => by simp) (by rw [hcontrol]; rfl)
      (fun _ _ _ hl => by rw [hcontrol] at hl; simp at hl) ?_
    rintro (hlog | hpending)
    · exact Or.inl (hlog.note inp _)
    · exact absurd hpending (by simp [Pending])
  · refine ⟨?_, fun _ => Or.inr hch, ?_, ?_, ?_⟩
    · intro hg
      exact absurd (hch.symm.trans hg) (by simp)
    · intro _ _ _ hl
      rw [hcontrol] at hl
      simp at hl
    · intro _ _
      exact Or.inl (Or.inr (Or.inl (by simp [note, hpromotes])))
    · rw [hcontrol, hcredit]
      exact h.credit

theorem Explained.step {p : Proc} (h : Explained credit p log) (inp : Input) :
    Explained credit (Advertise.step inp p).1 (note inp p log) := by
  obtain ⟨control, n⟩ := p
  cases control with
  | idle =>
      rw [Advertise.step, note]
      dsimp only
      split_ifs with hslot
      · exact ⟨h.gateway, fun hi => absurd rfl hi, fun _ _ _ hl => by simp at hl,
          fun hi => absurd rfl hi, h.credit⟩
      · have hgateway : n.state.role ≠ .gateway := h.gateway
        have hrole : (startAdvertise inp (Slots.activeSlot (inp.now 0) n).2).node.state.role =
            .follower := if_pos hgateway
        exact ⟨fun hg => absurd (hrole.symm.trans hg) (by simp), fun _ => Or.inl hrole,
          fun _ _ _ hl => by simp [startAdvertise] at hl,
          fun _ hch => absurd (hrole.symm.trans hch) (by simp), h.credit⟩
  | discovery l =>
      have hstarted := h.started (by simp)
      have hreason : n.state.role = .clusterhead → log.Explains := fun hch =>
        (h.reason (by simp) hch).resolve_right (by simp [Pending])
      rw [Advertise.step, note]
      dsimp only
      split_ifs with hend
      · exact explained_round h.gateway hstarted hreason h.credit
      · obtain ⟨neighbors, ring, rounds, hkept⟩ := heardState_kept inp n
        have hstate := (discoveryPass_state inp l n).trans hkept
        refine h.keep (by rw [hstate]) (by rw [hstate]) (fun _ => by simp) rfl
          (fun _ _ _ hl => by simp at hl) ?_
        exact Or.imp_right fun hpending => absurd hpending (by simp [Pending])
  | announcement round earlier l => exact explained_announcement h
  | joining stage round isClusterhead l =>
      have hstarted := h.started (by simp)
      have hreason : n.state.role = .clusterhead → log.Explains := fun hch =>
        (h.reason (by simp) hch).resolve_right (by simp [Pending])
      cases stage with
      | head =>
          rw [Advertise.step, note]
          dsimp only
          split_ifs with hend hround
          · exact explained_round h.gateway hstarted hreason h.credit
          · refine ⟨h.gateway, fun _ => hstarted, fun _ _ _ hl => by simp [finishAdvertise] at hl,
              fun _ hch => Or.inl (hreason hch), ?_⟩
            have hcredit : n.state.chCredit = credit := h.credit
            rw [finishAdvertise]
            dsimp only
            rw [if_pos h.gateway, hcredit]
            cases hstarted with
            | inl hf =>
                have hf : n.state.role = .follower := hf
                simp [MultihopState.actsAsClusterhead, hf, raisedCredit, Control.isDone]
            | inr hc =>
                have hc : n.state.role = .clusterhead := hc
                simp [MultihopState.actsAsClusterhead, hc, Control.isDone]
          · have hstate := joinHead_state inp l n
            refine h.keep (congrArg MultihopState.role hstate)
              (congrArg MultihopState.chCredit hstate) (fun _ => by simp) rfl
              (fun _ _ _ hl => by simp at hl) ?_
            exact Or.imp_right fun hpending => absurd hpending (by simp [Pending])
      | recv =>
          refine h.keep rfl rfl (fun _ => by simp) rfl
            (fun _ _ _ hl => by simp [Advertise.step] at hl) ?_
          exact Or.imp_right fun hpending => absurd hpending (by simp [Pending])
      | drain => exact explained_message h
  | done => exact h

theorem Explained.run {p : Proc} (inps : List Input) (h : Explained credit p log) :
    Explained credit (Advertise.run inps p) (logOf inps p log) := by
  induction inps generalizing p log with
  | nil => exact h
  | cons inp inps ih => exact ih (h.step inp)

end Steps

/-- A node that never lapses ends the slot as clusterhead only if it got its OpenCluster out or was
promoted on joining a cluster; otherwise it is a follower and its credit is raised. -/
theorem clusterhead_only_if_chosen (n : Node) (hgateway : n.state.role ≠ .gateway)
    (inps : List Input) :
    let p := run inps ⟨.idle, n⟩
    let log := logOf inps ⟨.idle, n⟩ Log.empty
    p.control.isDone = true → log.withdrew = false → log.unheard = false →
      (p.node.state.role = .clusterhead → log.announced = true ∨ log.promoted = true) ∧
        (log.announced = false → log.promoted = false →
          p.node.state.role = .follower ∧ p.node.state.actsAsClusterhead = false ∧
            p.node.state.chCredit = raisedCredit n.state.chCredit) := by
  intro p log hdone hwithdrew hunheard
  have hstart : Explained n.state.chCredit ⟨.idle, n⟩ Log.empty :=
    ⟨hgateway, fun hi => absurd rfl hi, fun _ _ _ hl => by simp at hl, fun hi => absurd rfl hi, rfl⟩
  have hend : Explained n.state.chCredit p log := hstart.run inps
  have hidle : p.control ≠ .idle := by
    intro hi
    rw [hi] at hdone
    exact absurd hdone (by simp [Control.isDone])
  have hreason (hch : p.node.state.role = .clusterhead) :
      log.announced = true ∨ log.promoted = true := by
    rcases hend.reason hidle hch with (ha | hp | hw | hu) | hpending
    · exact Or.inl ha
    · exact Or.inr hp
    · exact absurd (hwithdrew.symm.trans hw) (by simp)
    · exact absurd (hunheard.symm.trans hu) (by simp)
    · cases hc : p.control <;> rw [hc] at hdone hpending <;>
        simp [Control.isDone, Pending] at hdone hpending
  refine ⟨hreason, ?_⟩
  intro hannounced hpromoted
  have hnot : p.node.state.role ≠ .clusterhead := by
    intro hch
    cases hreason hch with
    | inl ha =>
        exact absurd (hannounced.symm.trans ha) (by simp)
    | inr hp =>
        exact absurd (hpromoted.symm.trans hp) (by simp)
  have hfollower := (hend.started hidle).resolve_right hnot
  have hcredit := hend.credit
  rw [hdone, if_pos rfl, if_neg hnot] at hcredit
  exact ⟨hfollower, by simp [MultihopState.actsAsClusterhead, hfollower], hcredit⟩

/-- A node of the third ring, too far out to be eligible in any round. -/
def outerNode : Node := { setupNode 5 with state := { (setupNode 5).state with ring := 3 } }

/-- A superframe in which the node hears nobody: two readings a round. -/
def lonelySlot : List Input :=
  [1000, 2201, 2502, 2803, 3104, 3405, 3706, 4007].map fun millis => reading millis 72 .timedOut

def innerNode : Node := { setupNode 5 with state := { (setupNode 5).state with ring := 1 } }

/-- A superframe in which the node volunteers in its round and announces itself. -/
def volunteerSlot : List Input :=
  [1000, 2201, 2502, 2803, 2900, 3104, 3405, 3706, 4007].map fun millis =>
    reading millis 72 .timedOut

/-- The node that announced itself is clusterhead, the one that did not is a follower. -/
theorem volunteer_leads_lonely_follows :
    (let p := run volunteerSlot ⟨.idle, innerNode⟩
      let log := logOf volunteerSlot ⟨.idle, innerNode⟩ Log.empty
      p.node.state.role = .clusterhead ∧ (log.announced = true ∨ log.promoted = true)) ∧
    let p := run lonelySlot ⟨.idle, outerNode⟩
    p.node.state.role = .follower ∧ p.node.state.actsAsClusterhead = false ∧
      p.node.state.chCredit = 1 := by
  have hrole : (run volunteerSlot ⟨.idle, innerNode⟩).node.state.role = .clusterhead := by
    decide +kernel
  refine ⟨⟨hrole, ?_⟩, ?_⟩
  · exact (clusterhead_only_if_chosen innerNode (by decide) volunteerSlot (by decide +kernel)
      (by decide +kernel) (by decide +kernel)).1 hrole
  · exact (clusterhead_only_if_chosen outerNode (by decide) lonelySlot (by decide +kernel)
      (by decide +kernel) (by decide +kernel)).2 (by decide +kernel) (by decide +kernel)

def fromSeven (body : Body) : Queue.Arrival := .accepted [Message.toBytes ⟨72, 7, body⟩]

/-- A superframe in which the node joins the cluster that ring 2 opens in the last round. -/
def joiningSlot : List Input :=
  ([1000, 2201, 2502, 2803, 3104, 3405].map fun millis => reading millis 72 .timedOut) ++
    [reading 3500 72 (fromSeven (.openCluster 2 7 ⟨2, fun i => if i.val = 0 then 1 else 0⟩)),
      reading 3706 72 .timedOut, reading 3800 72 .timedOut,
      reading 3800 72 (fromSeven (.accept 1 5 1 1 72)), reading 3900 72 .timedOut,
      reading 3900 72 .timedOut, reading 4007 72 .timedOut]

/-- A node that has announced nothing is promoted on joining. -/
theorem joined_node_is_clusterhead :
    let p := run joiningSlot ⟨.idle, outerNode⟩
    let log := logOf joiningSlot ⟨.idle, outerNode⟩ Log.empty
    p.control.isDone = true ∧ p.node.state.role = .clusterhead ∧ log.announced = false ∧
      p.node.state.chCredit = 0 := by
  decide +kernel

end LoraMultihop.Multihop.Election
