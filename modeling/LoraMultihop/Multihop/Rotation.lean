/- digest: How its credit makes a node take its turn as clusterhead, and how a node opts out. -/

import LoraMultihop.Multihop.Codec
import LoraMultihop.Multihop.Election
import LoraMultihop.Multihop.Traffic

set_option autoImplicit false
set_option relaxedAutoImplicit false

namespace LoraMultihop.Multihop.Rotation

open LoraMultihop.Foundation.ByteMemory (Bytes)
open LoraMultihop.Net.Params
open LoraMultihop.Link
open LoraMultihop.Multihop.Messages
open LoraMultihop.Multihop.State
open LoraMultihop.Multihop.Sending
open LoraMultihop.Multihop.Slots
open LoraMultihop.Multihop.Discovery
open LoraMultihop.Multihop.Advertise
open LoraMultihop.Multihop.Api
open LoraMultihop.Multihop.Election
open LoraMultihop.Multihop.Traffic

/-- No draw of `rand()` is lost at this credit in this ring. -/
def Sure (credit : UInt8) (ring : Ring) : Prop :=
  255 ≤ (basePForRing ring).toNat + CREDIT_SCALE.toNat * credit.toNat

private theorem announceClusterhead_sure {s : MultihopState} (hp : s.clusterheadP ≠ 0)
    (h : Sure s.chCredit s.ring) (rand : UInt32) : announceClusterhead rand s = true := by
  have hbase := (basePForRing s.ring).toNat_lt
  have hcredit := s.chCredit.toNat_lt
  have hscale : CREDIT_SCALE.toNat = 32 := rfl
  rw [Sure, hscale] at h
  have heffective : ((basePForRing s.ring).toUInt16 + s.chCredit.toUInt16 * CREDIT_SCALE).toNat =
      (basePForRing s.ring).toNat + 32 * s.chCredit.toNat := by
    rw [UInt16.toNat_add, UInt16.toNat_mul, UInt8.toNat_toUInt16, UInt8.toNat_toUInt16, hscale]
    omega
  have hcapped (e : UInt16) (he : 255 ≤ e.toNat) : (if 255 < e then 255 else e) = 255 := by
    split_ifs with hlt
    · rfl
    · rw [UInt16.lt_iff_toNat_lt, Nat.not_lt] at hlt
      exact UInt16.toNat.inj (Nat.le_antisymm hlt he)
  rw [announceClusterhead, if_neg hp]
  dsimp only
  rw [hcapped _ (heffective ▸ h)]
  exact decide_eq_true (UInt8.le_iff_toNat_le.mpr (Nat.le_of_lt_succ rand.toUInt8.toNat_lt))

/-- The node counts as a clusterhead of this superframe. -/
def claims : Control → Bool
  | .announcement _ earlier l => earlier || l.isClusterhead
  | .joining _ _ isClusterhead _ => isClusterhead
  | _ => false

/-- The rounds that have begun. -/
def reached : Control → Nat
  | .announcement round _ _ => round + 1
  | .joining _ round _ _ => round + 1
  | .done => NUM_ADV_ROUNDS
  | _ => 0

/-- As long as a node that cannot lose is no clusterhead, it has joined no cluster and its round has
not come. -/
structure Due (credit : UInt8) (p : Proc) : Prop where
  willing : p.node.state.clusterheadP ≠ 0
  claimed : claims p.control = true → p.node.state.role = .clusterhead
  unjoined : ∀ l, p.control = .discovery l → p.node.state.clusterheadAddr = UNKNOWN_ADDR
  unserved : p.control ≠ .idle → p.node.state.role ≠ .clusterhead → Sure credit p.node.state.ring →
    p.node.state.clusterheadAddr = UNKNOWN_ADDR ∧
      ∀ r < reached p.control, p.node.state.ring ≠ UInt8.ofNat r

section Steps

variable {credit : UInt8} {inp : Input} {log : Log} {n : Node}

private theorem Due.keep {p p' : Proc} (h : Due credit p) (hstate : p'.node.state = p.node.state)
    (hidle : p.control ≠ .idle) (hround : ∀ l, p'.control ≠ .discovery l)
    (hclaims : claims p'.control = true → claims p.control = true)
    (hreached : reached p'.control ≤ reached p.control) : Due credit p' where
  willing := hstate ▸ h.willing
  claimed hc := hstate ▸ h.claimed (hclaims hc)
  unjoined l hl := absurd hl (hround l)
  unserved _ hrole hsure := by
    rw [hstate] at hrole hsure ⊢
    obtain ⟨haddr, hrounds⟩ := h.unserved hidle hrole hsure
    exact ⟨haddr, fun r hr => hrounds r (hr.trans_le hreached)⟩

private theorem due_round {round : Nat} {earlier : Bool} (hgateway : n.state.role ≠ .gateway)
    (hcredit : n.state.chCredit = credit) (hwilling : n.state.clusterheadP ≠ 0)
    (hearlier : earlier = true → n.state.role = .clusterhead)
    (hunserved : n.state.role ≠ .clusterhead → Sure credit n.state.ring →
      n.state.clusterheadAddr = UNKNOWN_ADDR ∧ ∀ r < round, n.state.ring ≠ UInt8.ofNat r) :
    Due credit (startRound inp round earlier n) := by
  by_cases hnew : (volunteers (inp.rand 0) (UInt8.ofNat round) n.state && !earlier) = true
  · have hrole : (startRound inp round earlier n).node.state.role = .clusterhead := by
      rw [startRound, startAnnouncement]
      dsimp only
      rw [if_pos hnew, if_pos hgateway]
      rfl
    refine ⟨?_, fun _ => hrole, fun _ hl => by simp [startRound] at hl,
      fun _ hno => absurd hrole hno⟩
    rw [startRound, startAnnouncement]
    dsimp only
    rw [if_pos hnew, if_pos hgateway]
    exact hwilling
  · have hsame : (startRound inp round earlier n).node = n := by
      rw [startRound, startAnnouncement]
      dsimp only
      rw [if_neg hnew]
    refine ⟨?_, ?_, fun _ hl => by simp [startRound] at hl, ?_⟩
    · rw [hsame]
      exact hwilling
    · intro hclaims
      rw [hsame]
      apply hearlier
      cases hvolunteers : volunteers (inp.rand 0) (UInt8.ofNat round) n.state with
      | true =>
          rw [hvolunteers] at hnew
          simpa using hnew
      | false =>
          have hor : (earlier || volunteers (inp.rand 0) (UInt8.ofNat round) n.state) = true :=
            hclaims
          rwa [hvolunteers, Bool.or_false] at hor
    · intro _ hrole hsure
      rw [hsame] at hrole hsure ⊢
      obtain ⟨haddr, hrounds⟩ := hunserved hrole hsure
      refine ⟨haddr, fun r hr => ?_⟩
      have hr : r < round + 1 := hr
      cases Nat.lt_succ_iff_lt_or_eq.mp hr with
      | inl hr => exact hrounds r hr
      | inr hr =>
          subst hr
          intro hring
          apply hnew
          have hno : earlier = false := by
            cases earlier with
            | true => exact absurd (hearlier rfl) hrole
            | false => rfl
          rw [volunteers, if_pos hring, announceClusterhead_sure hwilling (hcredit ▸ hsure), hno]
          simp

private theorem answerFollow_standing (inp : Input) (isClusterhead : Bool) (m : Message)
    (n : Node) : (answerFollow inp isClusterhead m n).1.state.clusterheadP = n.state.clusterheadP ∧
      (answerFollow inp isClusterhead m n).1.state.ring = n.state.ring ∧
      (answerFollow inp isClusterhead m n).1.state.clusterheadAddr = n.state.clusterheadAddr := by
  rcases answerFollow_state inp isClusterhead m n with hs | ⟨-, hs⟩
  · rw [hs]
    exact ⟨rfl, rfl, rfl⟩
  · obtain ⟨table, count, hassign⟩ := assign_kept m.src n
    rw [hs, hassign]
    exact ⟨rfl, rfl, rfl⟩

private theorem join_due (inp : Input) (l : JoinLocals) (m : Message) (n : Node)
    (durationMs : UInt32) (hgateway : n.state.role ≠ .gateway) (hp : n.state.clusterheadP ≠ 0) :
    (join inp l m n durationMs).2.2.state.clusterheadP = n.state.clusterheadP ∧
      (join inp l m n durationMs).2.2.state.ring = n.state.ring ∧
      (n.state.role = .clusterhead → (join inp l m n durationMs).2.2.state.role = .clusterhead) ∧
      ((join inp l m n durationMs).2.2.state.role ≠ .clusterhead →
        Sure n.state.chCredit n.state.ring →
          (join inp l m n durationMs).2.2.state.clusterheadAddr = n.state.clusterheadAddr) := by
  rcases join_cases inp l m n durationMs with h | ⟨-, h⟩ |
    ⟨accepted, start, relative, remote, -, -, -, -, -, h⟩
  · rw [h]
    exact ⟨rfl, rfl, id, fun _ _ => rfl⟩
  · rw [h]
    exact ⟨rfl, rfl, id, fun _ _ => rfl⟩
  · rw [h]
    dsimp only
    rcases promote_cases (inp.rand 0) (attach l start relative n) with hpr | ⟨-, -, hpr⟩
    · rw [hpr]
      refine ⟨rfl, rfl, id, fun hrole hsure => ?_⟩
      have hrole : n.state.role ≠ .clusterhead := hrole
      have hacts : (attach l start relative n).state.actsAsClusterhead = false := by
        simp [MultihopState.actsAsClusterhead, attach, hgateway, hrole]
      have hwins : announceClusterhead (inp.rand 0) (attach l start relative n).state = true :=
        announceClusterhead_sure hp hsure _
      rw [promote, if_pos ⟨hacts, hwins⟩] at hpr
      exact absurd (congrArg (fun n => n.state.role) hpr).symm hrole
    · rw [hpr]
      exact ⟨rfl, rfl, fun _ => rfl, fun hrole => absurd rfl hrole⟩

private theorem due_message {round : Nat} {isClusterhead : Bool} {l : JoinLocals}
    (he : Explained credit ⟨.joining .drain round isClusterhead l, n⟩ log)
    (h : Due credit ⟨.joining .drain round isClusterhead l, n⟩) :
    Due credit (joinMessage inp round isClusterhead l n).1 := by
  rw [joinMessage]
  dsimp only
  split
  · exact h.keep rfl (by simp) (by simp) id le_rfl
  · next m _ _ =>
    generalize hn : ({ n with link := (Queue.getmsg n.link).2 } : Node) = n'
    have hstate : n'.state = n.state := by rw [← hn]
    obtain ⟨hrole, hcredit⟩ := answerFollow_role inp isClusterhead m n'
    obtain ⟨hp, hring, haddr⟩ := answerFollow_standing inp isClusterhead m n'
    rw [hstate] at hrole hcredit hp hring haddr
    have hgateway : (answerFollow inp isClusterhead m n').1.state.role ≠ .gateway := by
      rw [hrole]
      exact he.gateway
    have hwilling : (answerFollow inp isClusterhead m n').1.state.clusterheadP ≠ 0 := by
      rw [hp]
      exact h.willing
    obtain ⟨hp', hring', hkept, haddr'⟩ := join_due inp l m (answerFollow inp isClusterhead m n').1
      (roundMs (answerFollow inp isClusterhead m n').1.mac) hgateway hwilling
    have hcredit' : n.state.chCredit = credit := he.credit
    rw [hcredit, hring, haddr, hcredit'] at haddr'
    refine ⟨?_, ?_, fun _ hl => by simp at hl, ?_⟩
    · rw [hp']
      exact hwilling
    · intro hclaims
      apply hkept
      rw [hrole]
      apply h.claimed
      cases (join inp l m (answerFollow inp isClusterhead m n').1
        (roundMs (answerFollow inp isClusterhead m n').1.mac)).1 <;> exact hclaims
    · intro _ hno hsure
      dsimp only at hsure hno ⊢
      rw [hring', hring] at hsure ⊢
      have hbefore : n.state.role ≠ .clusterhead := by
        intro hyes
        exact hno (hkept (hrole.trans hyes))
      obtain ⟨hunknown, hrounds⟩ := h.unserved (by simp) hbefore hsure
      refine ⟨(haddr' hno hsure).trans hunknown, fun r hr => hrounds r ?_⟩
      split at hr <;> exact hr

private theorem Due.step {p : Proc} (he : Explained credit p log) (h : Due credit p) (inp : Input) :
    Due credit (Advertise.step inp p).1 := by
  obtain ⟨control, n⟩ := p
  cases control with
  | idle =>
      rw [Advertise.step]
      dsimp only
      split_ifs
      · exact ⟨h.willing, fun hc => absurd hc (by simp [claims]), fun _ hl => by simp at hl,
          fun hi => absurd rfl hi⟩
      · exact ⟨h.willing, fun hc => absurd hc (by simp [claims, startAdvertise]), fun _ _ => rfl,
          fun _ _ _ => ⟨rfl, fun r hr => absurd hr (Nat.not_lt_zero r)⟩⟩
  | discovery l =>
      rw [Advertise.step]
      dsimp only
      split_ifs
      · apply due_round he.gateway he.credit h.willing
        · intro hfalse
          exact absurd hfalse (by simp)
        · exact h.unserved (by simp)
      · obtain ⟨neighbors, ring, rounds, hkept⟩ := heardState_kept inp n
        have hstate := (discoveryPass_state inp l n).trans hkept
        have haddr : (discoveryPass inp l n).2.1.state.clusterheadAddr = UNKNOWN_ADDR := by
          rw [hstate]
          exact h.unjoined l rfl
        refine ⟨?_, fun hc => absurd hc (by simp [claims]), fun _ _ => haddr,
          fun _ _ _ => ⟨haddr, fun r hr => absurd hr (Nat.not_lt_zero r)⟩⟩
        dsimp only
        rw [hstate]
        exact h.willing
  | announcement round earlier l =>
      rw [Advertise.step]
      dsimp only
      split_ifs
      · exact h.keep rfl (by simp) (by simp) id le_rfl
      · refine h.keep (announcementPass_state inp l n) (by simp) (by simp) ?_ le_rfl
        intro hclaims
        have hclaims : (earlier || (announcementPass inp l n).1.isClusterhead) = true := hclaims
        have hraised := (announcementPass_not_raised inp l n).1
        cases Bool.or_eq_true_iff.mp hclaims with
        | inl hearlier => exact Bool.or_eq_true_iff.mpr (Or.inl hearlier)
        | inr hch => exact Bool.or_eq_true_iff.mpr (Or.inr (hraised hch))
  | joining stage round isClusterhead l =>
      cases stage with
      | head =>
          rw [Advertise.step]
          dsimp only
          split_ifs with hend hround
          · exact due_round he.gateway he.credit h.willing h.claimed (h.unserved (by simp))
          · refine ⟨h.willing, fun hc => absurd hc (by simp [claims, finishAdvertise]),
              fun _ hl => by simp [finishAdvertise] at hl, ?_⟩
            intro _ hrole hsure
            obtain ⟨haddr, hrounds⟩ := h.unserved (by simp) hrole hsure
            exact ⟨haddr, fun r hr => hrounds r (hr.trans_le (Nat.not_lt.mp hround))⟩
          · exact h.keep (joinHead_state inp l n) (by simp) (by simp) id le_rfl
      | recv => exact h.keep rfl (by simp) (by simp [Advertise.step]) id le_rfl
      | drain => exact due_message he h
  | done => exact h

private theorem Due.run {p : Proc} (inps : List Input) (he : Explained credit p log)
    (h : Due credit p) : Due credit (Advertise.run inps p) := by
  induction inps generalizing p log with
  | nil => exact h
  | cons inp inps ih => exact ih (he.step inp) (h.step he inp)

end Steps

/-- The node acts in one of the rounds that a superframe has, or it has joined a cluster. -/
def Served (n : Node) : Prop :=
  (∃ r < NUM_ADV_ROUNDS, n.state.ring = UInt8.ofNat r) ∨ n.state.clusterheadAddr ≠ UNKNOWN_ADDR

private theorem advertise_turn {n : Node} (hgateway : n.state.role ≠ .gateway)
    (hp : n.state.clusterheadP ≠ 0) (inps : List Input) :
    let p := run inps ⟨.idle, n⟩
    p.node.state.role ≠ .gateway ∧ p.node.state.clusterheadP ≠ 0 ∧
      p.node.state.chCredit =
        (if p.control.isDone then
          if p.node.state.role = .clusterhead then 0 else raisedCredit n.state.chCredit
        else n.state.chCredit) ∧
      (p.control.isDone = true → Served p.node → Sure n.state.chCredit p.node.state.ring →
        p.node.state.role = .clusterhead) := by
  intro p
  have hstart : Explained n.state.chCredit ⟨.idle, n⟩ Log.empty :=
    ⟨hgateway, fun hi => absurd rfl hi, fun _ _ _ hl => by simp at hl, fun hi => absurd rfl hi, rfl⟩
  have hdue : Due n.state.chCredit ⟨.idle, n⟩ :=
    ⟨hp, fun hc => absurd hc (by simp [claims]), fun _ hl => by simp at hl,
      fun hi => absurd rfl hi⟩
  have hend : Explained n.state.chCredit p (logOf inps ⟨.idle, n⟩ Log.empty) := hstart.run inps
  have hend' : Due n.state.chCredit p := hdue.run inps hstart
  refine ⟨hend.gateway, hend'.willing, hend.credit, fun hdone hserved hsure => ?_⟩
  by_contra hrole
  have hcontrol : p.control = .done := by
    cases hc : p.control <;> rw [hc] at hdone <;> simp [Control.isDone] at hdone
  obtain ⟨haddr, hrounds⟩ := hend'.unserved (by rw [hcontrol]; simp) hrole hsure
  rw [hcontrol] at hrounds
  rcases hserved with ⟨r, hr, hring⟩ | hjoined
  · exact hrounds r hr hring
  · exact hjoined haddr

/-- What only `do_advertise` and `set_clusterhead_probability` change. -/
def standing (s : MultihopState) : Role × UInt8 × UInt8 :=
  (s.role, s.chCredit, s.clusterheadP)

section Views

/-- The view leaves out what the calls other than `do_advertise` and `set_clusterhead_probability`
can change. -/
def Apart {α : Type*} (view : MultihopState → α) : Prop :=
  ∀ s acks table count address ring,
    view { s with
      acks := acks
      slotAssignments := table
      slotsAssigned := count
      clusterheadAddr := address
      clusterheadRing := ring } = view s

variable {α : Type*} {view : MultihopState → α} {n : Node}

private theorem Apart.takeClusterheadMsg (h : Apart view) (w : Bool × Node) (buf : Bytes) :
    view (takeClusterheadMsg w buf).2.state = view w.2.state := by
  rw [Slots.takeClusterheadMsg]
  dsimp only
  split
  · split_ifs
    · exact h ..
    · rfl
  · split_ifs <;> exact h ..
  · rfl

private theorem Apart.waitLoop (h : Apart view) (chSlot : UInt8) (passes : List WaitPass)
    (n : Node) : view (waitLoop chSlot passes n).2.state = view n.state := by
  have hframe (msgs : List Bytes) (n : Node) :
      view (takeFrame msgs n).2.state = view n.state := by
    have hfold (w : Bool × Node) :
        view (msgs.foldl Slots.takeClusterheadMsg w).2.state = view w.2.state := by
      induction msgs generalizing w with
      | nil => rfl
      | cons b msgs ih => rw [List.foldl_cons, ih, h.takeClusterheadMsg]
    exact hfold _
  induction passes generalizing n with
  | nil => rfl
  | cons p passes ih =>
      rw [Slots.waitLoop]
      dsimp only
      split_ifs
      · rfl
      · rfl
      · exact (ih _).trans (hframe ..)
      · exact hframe ..
      · exact hframe ..

private theorem Apart.takeDatagram (h : Apart view) (relative : UInt8) (n : Node) (buf : Bytes) :
    view (takeDatagram relative n buf).state = view n.state := by
  rw [Slots.takeDatagram]
  split
  · exact h ..
  · rfl

private theorem Apart.takeDatagrams (h : Apart view) (relative : UInt8) (msgs : List Bytes)
    (n : Node) : view (msgs.foldl (Slots.takeDatagram relative) n).state = view n.state := by
  induction msgs generalizing n with
  | nil => rfl
  | cons b msgs ih => rw [List.foldl_cons, ih, h.takeDatagram]

theorem Apart.exec (h : Apart view) {op : Op} (hop : isAdvertise op = false)
    (hset : ∀ p, op ≠ .setClusterheadProbability p) (n : Node) :
    view (op.exec n).state = view n.state := by
  cases op with
  | doAdvertise inps => exact absurd hop (by simp [isAdvertise])
  | setClusterheadProbability p => exact absurd rfl (hset p)
  | accept follower remote stamp =>
      rw [Op.exec]
      by_cases hi : n.state.initialized = true
      · rw [accept_snd remote stamp hi, send_state]
        obtain ⟨table, count, hkept⟩ := assign_kept follower n
        rw [hkept]
        exact h ..
      · rw [Sending.accept, if_pos (by simpa using hi)]
  | doFollowerRecv slotNow passes =>
      rw [Op.exec, doFollowerRecv]
      dsimp only
      split_ifs
      · rfl
      · rfl
      · exact h.waitLoop ..
  | doClusterheadRecv inp =>
      rw [Op.exec, doClusterheadRecv]
      dsimp only
      split
      · rfl
      · split_ifs
        · rfl
        · rfl
        · exact h.takeDatagrams ..
  | _ => exact congrArg view (Api.exec_state rfl n)

end Views

theorem exec_standing {op : Op} (hop : isAdvertise op = false)
    (hset : ∀ p, op ≠ .setClusterheadProbability p) (n : Node) :
    standing (op.exec n).state = standing n.state :=
  Apart.exec (fun _ _ _ _ _ _ => rfl) hop hset n

def completes : Op → Node → Bool
  | .doAdvertise inps, n => (run inps ⟨.idle, n⟩).control.isDone
  | _, _ => false

/-- The node at the end of each `do_advertise` that the calls complete, in order. -/
def superframes : List Op → Node → List Node
  | [], _ => []
  | op :: ops, n =>
      if completes op n then op.exec n :: superframes ops (op.exec n)
      else superframes ops (op.exec n)

/-- A node that cannot lose at its credit and is served becomes clusterhead; the credit counts the
superframes since it was one. -/
def Turns : UInt8 → List Node → Prop
  | _, [] => True
  | credit, m :: ms =>
      (Served m → Sure credit m.state.ring → m.state.role = .clusterhead) ∧
        Turns (if m.state.role = .clusterhead then 0 else raisedCredit credit) ms

section Turns

private theorem Turns.drop {credit : UInt8} {before ms : List Node}
    (h : Turns credit (before ++ ms)) : ∃ credit', Turns credit' ms := by
  induction before generalizing credit with
  | nil => exact ⟨credit, h⟩
  | cons m before ih => exact ih h.2

private theorem raisedCredit_toNat (credit : UInt8) :
    (raisedCredit credit).toNat = min 255 (credit.toNat + 1) := by
  have hlt := credit.toNat_lt
  rw [raisedCredit]
  split_ifs with h
  · rw [UInt8.lt_iff_toNat_lt, show (255 : UInt8).toNat = 255 from rfl] at h
    rw [UInt8.toNat_add, show (1 : UInt8).toNat = 1 from rfl]
    omega
  · rw [UInt8.lt_iff_toNat_lt, show (255 : UInt8).toNat = 255 from rfl] at h
    omega

private theorem Turns.waited {credit : UInt8} {waited ms : List Node}
    (h : Turns credit (waited ++ ms)) (hnever : ∀ m ∈ waited, m.state.role ≠ .clusterhead) :
    ∃ credit', min 255 (credit.toNat + waited.length) ≤ credit'.toNat ∧ Turns credit' ms := by
  induction waited generalizing credit with
  | nil => exact ⟨credit, min_le_right _ _, h⟩
  | cons m waited ih =>
      have hrest := h.2
      rw [if_neg (hnever m List.mem_cons_self)] at hrest
      obtain ⟨credit', hcredit, hturns⟩ :=
        ih hrest fun m' hm' => hnever m' (List.mem_cons_of_mem _ hm')
      refine ⟨credit', ?_, hturns⟩
      rw [raisedCredit_toNat] at hcredit
      rw [List.length_cons]
      omega

private theorem superframes_turns {ops : List Op}
    (hops : ∀ p, .setClusterheadProbability p ∈ ops → p ≠ 0)
    {n : Node} (hgateway : n.state.role ≠ .gateway) (hp : n.state.clusterheadP ≠ 0) :
    Turns n.state.chCredit (superframes ops n) := by
  induction ops generalizing n with
  | nil => trivial
  | cons op ops ih =>
      have hrest (p : UInt8) (h : .setClusterheadProbability p ∈ ops) : p ≠ 0 :=
        hops p (List.mem_cons_of_mem _ h)
      rw [superframes]
      cases hadv : isAdvertise op with
      | true =>
          obtain ⟨inps, rfl⟩ : ∃ inps, op = .doAdvertise inps := by
            cases op with
            | doAdvertise inps => exact ⟨inps, rfl⟩
            | _ => exact absurd hadv (by simp [isAdvertise])
          obtain ⟨hgateway', hp', hcredit, hturn⟩ := advertise_turn hgateway hp inps
          have hnext := ih hrest (n := Op.exec (.doAdvertise inps) n) hgateway' hp'
          rw [show (Op.exec (.doAdvertise inps) n).state.chCredit = _ from hcredit] at hnext
          cases hdone : (run inps ⟨.idle, n⟩).control.isDone with
          | true =>
              rw [hdone, if_pos rfl] at hnext
              rw [completes, hdone, if_pos rfl]
              exact ⟨hturn hdone, hnext⟩
          | false =>
              rw [hdone, if_neg Bool.false_ne_true] at hnext
              rw [completes, hdone, if_neg Bool.false_ne_true]
              exact hnext
      | false =>
          have hcompletes : completes op n = false := by
            cases op with
            | doAdvertise inps => exact absurd hadv (by simp [isAdvertise])
            | _ => rfl
          rw [hcompletes, if_neg Bool.false_ne_true]
          have hsame : (op.exec n).state.role = n.state.role ∧
              (op.exec n).state.chCredit = n.state.chCredit ∧
                (op.exec n).state.clusterheadP ≠ 0 := by
            by_cases hset : ∃ p, op = .setClusterheadProbability p
            · obtain ⟨p, rfl⟩ := hset
              exact ⟨rfl, rfl, hops p List.mem_cons_self⟩
            · have hstanding := exec_standing hadv (fun p hp => hset ⟨p, hp⟩) n
              simp only [standing, Prod.mk.injEq] at hstanding
              exact ⟨hstanding.1, hstanding.2.1, hstanding.2.2 ▸ hp⟩
          rw [← hsame.2.1]
          exact ih hrest (hsame.1 ▸ hgateway) hsame.2.2

end Turns

private theorem basePForRing_ge (ring : Ring) : 16 ≤ (basePForRing ring).toNat := by
  have hall : ∀ r < 256, 16 ≤ (basePForRing (UInt8.ofNat r)).toNat := by decide +kernel
  have hring := hall ring.toNat ring.toNat_lt
  rwa [UInt8.ofNat_toNat] at hring

/-- A node that has not been clusterhead at the end of its last superframes, enough of them for the
base probability of its ring and the credit to add up to 255, is clusterhead at the end of the next
one if it acts in one of the rounds or joins a cluster; eight are enough in every ring. -/
theorem clusterhead_in_turn {n : Node} (hgateway : n.state.role ≠ .gateway)
    (hp : n.state.clusterheadP ≠ 0) {ops : List Op}
    (hops : ∀ p, .setClusterheadProbability p ∈ ops → p ≠ 0) {waited : List Node} {m : Node}
    (hrun : waited ++ [m] <:+: superframes ops n) (hserved : Served m)
    (hlong : 8 ≤ waited.length ∨
      255 ≤ (basePForRing m.state.ring).toNat + CREDIT_SCALE.toNat * waited.length) :
    ∃ m' ∈ waited ++ [m], m'.state.role = .clusterhead := by
  have hscale : CREDIT_SCALE.toNat = 32 := rfl
  have hbase := basePForRing_ge m.state.ring
  by_contra hno
  have hnever (m' : Node) (hm' : m' ∈ waited ++ [m]) : m'.state.role ≠ .clusterhead :=
    fun hch => hno ⟨m', hm', hch⟩
  obtain ⟨before, after, hall⟩ := hrun
  have hturns := superframes_turns hops hgateway hp
  rw [← hall, List.append_assoc] at hturns
  obtain ⟨credit, hturns⟩ := hturns.drop
  rw [List.append_assoc] at hturns
  obtain ⟨credit', hcredit, hlast, -⟩ :=
    hturns.waited fun m' hm' => hnever m' (List.mem_append_left _ hm')
  refine hnever m (List.mem_append_right _ List.mem_cons_self) (hlast hserved ?_)
  rw [Sure, hscale]
  rw [hscale] at hlong
  omega

/-- A node of the second ring, and a superframe in which it hears nobody and draws badly. -/
def secondRingNode : Node := { setupNode 5 with state := { (setupNode 5).state with ring := 2 } }

def losingSlot : List Input := lonelySlot.map fun inp => { inp with rand := fun _ => 255 }

def losing : Nat → Node
  | 0 => secondRingNode
  | k + 1 => Op.exec (.doAdvertise losingSlot) (losing k)

theorem third_turn_comes :
    ∃ m ∈ [losing 1, losing 2] ++ [losing 3], m.state.role = .clusterhead := by
  have hops (p : UInt8)
      (h : .setClusterheadProbability p ∈ List.replicate 3 (Op.doAdvertise losingSlot)) :
      p ≠ 0 := by
    simp at h
  have hframes : superframes (List.replicate 3 (.doAdvertise losingSlot)) secondRingNode =
      [losing 1, losing 2] ++ [losing 3] := by
    rw [List.replicate, superframes, if_pos (by decide +kernel), List.replicate, superframes,
      if_pos (by decide +kernel), List.replicate, superframes, if_pos (by decide +kernel)]
    rfl
  have hrun : [losing 1, losing 2] ++ [losing 3] <:+:
      superframes (List.replicate 3 (.doAdvertise losingSlot)) secondRingNode := by
    rw [hframes]
  apply clusterhead_in_turn (by decide) (by decide) hops hrun
  · exact Or.inl ⟨2, by decide, by decide +kernel⟩
  · exact Or.inr (by decide +kernel)

section OptOut

/-- A message that opens a cluster or lets a node into one. -/
def invites (b : Bytes) : Bool :=
  match decodeMsg b with
  | some (⟨_, _, .openCluster _ _ _⟩, _) => true
  | some (⟨_, _, .accept _ _ _ _ _⟩, _) => true
  | _ => false

private theorem invites_toBytes {m : Message} {tail : Bytes} (hopen : m.body.type ≠ .openCluster)
    (haccept : m.body.type ≠ .accept) : invites (m.toBytes ++ tail) = false := by
  rw [invites]
  split
  · next hdec =>
    have heq := congrArg (fun r => r.1.body.type) (eq_of_decodeMsg hdec)
    exact absurd heq.symm hopen
  · next hdec =>
    have heq := congrArg (fun r => r.1.body.type) (eq_of_decodeMsg hdec)
    exact absurd heq.symm haccept
  · rfl

private theorem type_of_decodeMsg {buf : Bytes} {r : Message × Bytes} (h : decodeMsg buf = some r) :
    buf[5]? = some r.1.body.type.toByte := by
  rw [(Codec.decodeMsg_eq_some_iff.mp h).1]
  rfl

private theorem invites_datagram {b : Bytes} (h : Relay.isDatagram b = true) (k : Nat) :
    invites (b.take k) = false := by
  have hbyte : b[5]? = some 5 := by
    rw [Relay.isDatagram] at h
    split at h
    · next hdec => exact type_of_decodeMsg hdec
    · exact absurd h (by simp)
  have htake {t : UInt8} (ht : (b.take k)[5]? = some t) : t = 5 := by
    rw [List.getElem?_take] at ht
    split_ifs at ht
    rw [hbyte] at ht
    exact (Option.some.inj ht).symm
  rw [invites]
  split
  · next hdec =>
    have hopen := htake (type_of_decodeMsg hdec)
    exact absurd hopen (by simp [Body.type, MessageType.toByte])
  · next hdec =>
    have haccept := htake (type_of_decodeMsg hdec)
    exact absurd haccept (by simp [Body.type, MessageType.toByte])
  · rfl

/-- A node that takes no part in the election, whatever round it is in. -/
structure Aside (P : Bytes → Prop) (p : Proc) : Prop where
  unwilling : p.node.state.clusterheadP = 0
  follower : p.node.state.role = .follower
  silent : claims p.control = false
  quiet : ∀ round earlier l, p.control = .announcement round earlier l → l.needToAnnounce = false
  carries : Carries P p.node

variable {P : Bytes → Prop} {inp : Input} {n : Node}

private theorem announceClusterhead_unwilling {s : MultihopState} (h : s.clusterheadP = 0)
    (rand : UInt32) : announceClusterhead rand s = false := by
  rw [announceClusterhead, if_pos h]

private theorem Aside.keep {p p' : Proc} (h : Aside P p) (hstate : p'.node.state = p.node.state)
    (hsilent : claims p'.control = false)
    (hquiet : ∀ round earlier l, p'.control = .announcement round earlier l →
      l.needToAnnounce = false) (hcarries : Carries P p'.node) : Aside P p' where
  unwilling := hstate ▸ h.unwilling
  follower := hstate ▸ h.follower
  silent := hsilent
  quiet := hquiet
  carries := hcarries

private theorem aside_round (round : Nat) (hunwilling : n.state.clusterheadP = 0)
    (hfollower : n.state.role = .follower) (hcarries : Carries P n) :
    Aside P (startRound inp round false n) := by
  have hno : volunteers (inp.rand 0) (UInt8.ofNat round) n.state = false := by
    rw [volunteers, announceClusterhead_unwilling hunwilling, hfollower]
    split_ifs <;> rfl
  have hnew : ¬ (volunteers (inp.rand 0) (UInt8.ofNat round) n.state && !false) = true := by
    simp [hno]
  rw [startRound, startAnnouncement]
  dsimp only
  rw [if_neg hnew]
  refine ⟨hunwilling, hfollower, hno, fun _ _ _ hl => ?_, hcarries⟩
  obtain ⟨-, -, rfl⟩ := Control.announcement.inj hl
  exact Bool.eq_false_iff.mpr hnew

private theorem join_aside (inp : Input) (l : JoinLocals) (m : Message) (durationMs : UInt32)
    (hunwilling : n.state.clusterheadP = 0) (hfollower : n.state.role = .follower) :
    (join inp l m n durationMs).2.2.state.clusterheadP = 0 ∧
      (join inp l m n durationMs).2.2.state.role = .follower := by
  rcases join_cases inp l m n durationMs with heq | ⟨-, heq⟩ |
    ⟨accepted, start, relative, remote, -, -, -, -, -, heq⟩
  · rw [heq]
    exact ⟨hunwilling, hfollower⟩
  · rw [heq]
    exact ⟨hunwilling, hfollower⟩
  · rw [heq]
    dsimp only
    rcases promote_cases (inp.rand 0) (attach l start relative n) with hpr | ⟨-, hwins, -⟩
    · rw [hpr]
      exact ⟨hunwilling, hfollower⟩
    · have hno : (attach l start relative n).state.clusterheadP = 0 := hunwilling
      rw [announceClusterhead_unwilling hno] at hwins
      exact absurd hwins (by simp)

private theorem aside_message (inp : Input) {round : Nat} {l : JoinLocals}
    (h : Aside P ⟨.joining .drain round false l, n⟩) :
    Aside P (joinMessage inp round false l n).1 ∧
      (joinMessage inp round false l n).2 = [] := by
  have hget : Carries P { n with link := (Queue.getmsg n.link).2 } := by
    intro b hb
    apply h.carries
    rw [Queue.getmsg] at hb
    split at hb <;> exact hb
  rw [joinMessage]
  dsimp only
  split
  · exact ⟨h.keep rfl rfl (fun _ _ _ hl => by simp at hl) hget, rfl⟩
  · next m _ _ =>
    have hanswer (n : Node) : answerFollow inp false m n = (n, []) := by
      rcases answerFollow_cases inp false m n with heq | ⟨follower, -, hfalse, -⟩
      · exact heq
      · exact absurd hfalse (by simp)
    rw [hanswer]
    dsimp only
    obtain ⟨hunwilling, hfollower⟩ := join_aside inp l m (roundMs
      ({ n with link := (Queue.getmsg n.link).2 } : Node).mac)
      (n := { n with link := (Queue.getmsg n.link).2 }) h.unwilling h.follower
    refine ⟨⟨hunwilling, hfollower, rfl, fun _ _ _ hl => by simp at hl, ?_⟩, rfl⟩
    intro b hb
    apply hget
    rwa [join_link] at hb

/-- With nothing to announce, a pass of the announcement loop neither announces nor claims. -/
private theorem aside_announcementPass (inp : Input) {round : Nat} {earlier : Bool}
    {l : AnnounceLocals} (h : Aside P ⟨.announcement round earlier l, n⟩) :
    let r := announcementPass inp l n
    Aside P ⟨.announcement round earlier r.1, r.2.1⟩ ∧ ∀ f ∈ r.2.2, ∀ b ∈ f.msgs, P b := by
  have hsilent : (earlier || l.isClusterhead) = false := h.silent
  have hquiet : l.needToAnnounce = false := h.quiet round earlier l rfl
  obtain ⟨hqueue, hframes⟩ := announcementPass_carries (P := P) (n := n) inp (l := l) h.carries
    fun hneed => absurd (hquiet.symm.trans hneed) (by simp)
  obtain ⟨hch, hneed⟩ := announcementPass_not_raised inp l n
  refine ⟨h.keep (announcementPass_state inp l n) ?_ ?_ hqueue, hframes⟩
  · rw [Bool.or_eq_false_iff] at hsilent
    refine Bool.or_eq_false_iff.mpr ⟨hsilent.1, Bool.eq_false_iff.mpr fun hyes => ?_⟩
    exact absurd (hsilent.2.symm.trans (hch hyes)) (by simp)
  · intro round' earlier' l' hl
    obtain ⟨-, -, rfl⟩ := Control.announcement.inj hl
    refine Bool.eq_false_iff.mpr fun hyes => ?_
    exact absurd (hquiet.symm.trans (hneed hyes)) (by simp)

private theorem Aside.step {p : Proc} (hP : ∀ b, invites b = false → P b) (h : Aside P p)
    (inp : Input) :
    Aside P (Advertise.step inp p).1 ∧ ∀ f ∈ (Advertise.step inp p).2, ∀ b ∈ f.msgs, P b := by
  obtain ⟨control, n⟩ := p
  have hplain {m : Message} (hopen : m.body.type ≠ .openCluster)
      (haccept : m.body.type ≠ .accept) : P m.toBytes := by
    apply hP
    rw [← List.append_nil m.toBytes]
    exact invites_toBytes hopen haccept
  cases control with
  | idle =>
      rw [Advertise.step]
      dsimp only
      split_ifs
      · exact ⟨h.keep rfl rfl (fun _ _ _ hl => by simp at hl) h.carries,
          fun f hf => absurd hf List.not_mem_nil⟩
      · refine ⟨⟨h.unwilling, ?_, rfl, fun _ _ _ hl => by simp [startAdvertise] at hl, h.carries⟩,
          fun f hf => absurd hf List.not_mem_nil⟩
        have hgateway : n.state.role ≠ .gateway := by
          rw [show n.state.role = .follower from h.follower]
          simp
        exact if_pos hgateway
  | discovery l =>
      rw [Advertise.step]
      dsimp only
      split_ifs
      · exact ⟨aside_round 0 h.unwilling h.follower h.carries,
          fun f hf => absurd hf List.not_mem_nil⟩
      · obtain ⟨neighbors, ring, rounds, hkept⟩ := heardState_kept inp n
        have hstate := (discoveryPass_state inp l n).trans hkept
        obtain ⟨hqueue, hframes⟩ := discoveryPass_carries (n := n) inp l h.carries
          fun _ _ => hplain (by simp [Body.type]) (by simp [Body.type])
        refine ⟨⟨?_, ?_, rfl, fun _ _ _ hl => by simp at hl, hqueue⟩, hframes⟩
        · dsimp only
          rw [hstate]
          exact h.unwilling
        · dsimp only
          rw [hstate]
          exact h.follower
  | announcement round earlier l =>
      rw [Advertise.step]
      dsimp only
      split_ifs
      · exact ⟨h.keep rfl h.silent (fun _ _ _ hl => by simp at hl) h.carries,
          fun f hf => absurd hf List.not_mem_nil⟩
      · exact aside_announcementPass inp h
  | joining stage round isClusterhead l =>
      obtain rfl : isClusterhead = false := h.silent
      cases stage with
      | head =>
          rw [Advertise.step]
          dsimp only
          split_ifs
          · exact ⟨aside_round (round + 1) h.unwilling h.follower h.carries,
              fun f hf => absurd hf List.not_mem_nil⟩
          · exact ⟨⟨h.unwilling, h.follower, rfl, fun _ _ _ hl => by simp [finishAdvertise] at hl,
              h.carries⟩, fun f hf => absurd hf List.not_mem_nil⟩
          · have hcarries := joinHead_carries (P := P) (n := n) inp (l := l) h.carries
              fun _ _ stamp => hplain (by simp [Body.type]) (by simp [Body.type])
            exact ⟨h.keep (joinHead_state inp l n) rfl (fun _ _ _ hl => by simp at hl) hcarries.1,
              hcarries.2⟩
      | recv =>
          exact ⟨h.keep rfl rfl (fun _ _ _ hl => by simp [Advertise.step] at hl)
            (recv_carries h.carries _ _), fun f hf => absurd hf List.not_mem_nil⟩
      | drain =>
          obtain ⟨haside, hnone⟩ := aside_message inp h
          refine ⟨haside, fun f hf => ?_⟩
          have hf : f ∈ (joinMessage inp round false l n).2 := hf
          rw [hnone] at hf
          exact absurd hf List.not_mem_nil
  | done => exact ⟨h, fun f hf => absurd hf List.not_mem_nil⟩

private theorem Aside.run {p : Proc} (hP : ∀ b, invites b = false → P b) (h : Aside P p)
    (inps : List Input) :
    Aside P (Advertise.run inps p) ∧ ∀ f ∈ advertiseFrames inps p, ∀ b ∈ f.msgs, P b := by
  induction inps generalizing p with
  | nil => exact ⟨h, fun f hf => absurd hf List.not_mem_nil⟩
  | cons inp inps ih =>
      obtain ⟨hstep, hframes⟩ := h.step hP inp
      obtain ⟨hrun, hrest⟩ := ih hstep
      refine ⟨hrun, fun f hf => ?_⟩
      cases List.mem_append.mp hf with
      | inl hf => exact hframes f hf
      | inr hf => exact hrest f hf

def framesOf : List Op → Node → List Queue.Frame
  | [], _ => []
  | op :: ops, n => sends op n ++ framesOf ops (op.exec n)

/-- The parts of `Aside` between two calls. -/
def OptedOut (P : Bytes → Prop) (n : Node) : Prop :=
  n.state.clusterheadP = 0 ∧ n.state.role = .follower ∧ Carries P n

private theorem OptedOut.exec (hP : ∀ b, invites b = false → P b) (h : OptedOut P n) {op : Op}
    (hset : ∀ p, op = .setClusterheadProbability p → p = 0)
    (hopen : asks op .openCluster = false) (haccept : asks op .accept = false) :
    OptedOut P (op.exec n) ∧ ∀ f ∈ sends op n, ∀ b ∈ f.msgs, P b := by
  obtain ⟨hunwilling, hfollower, hcarries⟩ := h
  cases hadv : isAdvertise op with
  | true =>
      cases op with
      | doAdvertise inps =>
          have hstart : Aside P ⟨.idle, n⟩ :=
            ⟨hunwilling, hfollower, rfl, fun _ _ _ hl => by simp at hl, hcarries⟩
          obtain ⟨hend, hframes⟩ := hstart.run hP inps
          exact ⟨⟨hend.unwilling, hend.follower, hend.carries⟩, hframes⟩
      | _ => exact absurd hadv (by simp [isAdvertise])
  | false =>
      have hmade {b : Bytes} (hb : Makes n op b) : P b := by
        apply hP
        cases hb with
        | own op stamp body hasks =>
            rw [← List.append_nil (Message.toBytes _)]
            apply invites_toBytes
            · intro hbody
              rw [hbody] at hasks
              exact absurd (hopen.symm.trans hasks) (by simp)
            · intro hbody
              rw [hbody] at hasks
              exact absurd (haccept.symm.trans hasks) (by simp)
        | acks op stamp start count hcount =>
            exact invites_toBytes (by simp [Body.type]) (by simp [Body.type])
        | datagram stamp iter datagram fragment iter' hnext hok =>
            have htype := next_type hnext
            exact invites_toBytes (by simp [htype]) (by simp [htype])
        | forward inp b hb hdatagram => exact invites_datagram hdatagram _
      obtain ⟨code, hmoves⟩ := Moves.exec hadv n
      have hqueue : Carries P (op.exec n) := fun b hb => (hmoves.tx b hb).elim (hcarries b) hmade
      have hsent (f : Queue.Frame) (hf : f ∈ sends op n) (b : Bytes) (hb : b ∈ f.msgs) : P b :=
        ((hmoves.sent f hf).2 b hb).elim (hcarries b) hmade
      by_cases hprobability : ∃ p, op = .setClusterheadProbability p
      · obtain ⟨p, rfl⟩ := hprobability
        exact ⟨⟨hset p rfl, hfollower, hqueue⟩, hsent⟩
      · have hstanding := exec_standing hadv (fun p hp => hprobability ⟨p, hp⟩) n
        simp only [standing, Prod.mk.injEq] at hstanding
        obtain ⟨hrole, -, hp⟩ := hstanding
        exact ⟨⟨hp.trans hunwilling, hrole.trans hfollower, hqueue⟩, hsent⟩

/-- A node whose probability is zero stays a follower over any calls that neither raise it nor ask
for an OpenCluster or an Accept outright: no such message leaves the node, or is left in its queue,
that was not queued when it opted out. -/
theorem opted_out_stays_follower (hunwilling : n.state.clusterheadP = 0)
    (hfollower : n.state.role = .follower) {ops : List Op}
    (hset : ∀ p, .setClusterheadProbability p ∈ ops → p = 0)
    (hasked : ∀ op ∈ ops, asks op .openCluster = false ∧ asks op .accept = false) :
    (runOps ops n).state.role = .follower ∧
      ∀ b, b ∈ (framesOf ops n).flatMap Queue.Frame.msgs ∨ b ∈ (runOps ops n).link.tx →
        invites b = true → b ∈ n.link.tx := by
  have hrun (ops : List Op) (n' : Node)
      (hset : ∀ p, .setClusterheadProbability p ∈ ops → p = 0)
      (hasked : ∀ op ∈ ops, asks op .openCluster = false ∧ asks op .accept = false)
      (h : OptedOut (fun b => invites b = true → b ∈ n.link.tx) n') :
      OptedOut (fun b => invites b = true → b ∈ n.link.tx) (runOps ops n') ∧
        ∀ f ∈ framesOf ops n', ∀ b ∈ f.msgs, invites b = true → b ∈ n.link.tx := by
    induction ops generalizing n' with
    | nil => exact ⟨h, fun f hf => absurd hf List.not_mem_nil⟩
    | cons op ops ih =>
        obtain ⟨hopen, haccept⟩ := hasked op List.mem_cons_self
        obtain ⟨hnext, hframes⟩ := h.exec
          (fun b hb hinvites => absurd (hb.symm.trans hinvites) (by simp))
          (fun p hp => hset p (hp ▸ List.mem_cons_self)) hopen haccept
        obtain ⟨hend, hrest⟩ := ih (op.exec n') (fun p hp => hset p (List.mem_cons_of_mem _ hp))
          (fun op hop => hasked op (List.mem_cons_of_mem _ hop)) hnext
        refine ⟨hend, fun f hf => ?_⟩
        cases List.mem_append.mp hf with
        | inl hf => exact hframes f hf
        | inr hf => exact hrest f hf
  obtain ⟨⟨-, hrole, hqueue⟩, hframes⟩ := hrun ops n hset hasked
    ⟨hunwilling, hfollower, fun b hb _ => hb⟩
  refine ⟨hrole, fun b hb hinvites => ?_⟩
  rcases hb with hb | hb
  · obtain ⟨f, hf, hbf⟩ := List.mem_flatMap.mp hb
    exact hframes f hf b hbf hinvites
  · exact hqueue b hb hinvites

def optedOutNode : Node :=
  { outerNode with state := { outerNode.state with clusterheadP := 0 } }

/-- It joins the cluster of ring 2, sends a datagram and joins again. -/
def optedOutCalls : List Op :=
  [.doAdvertise joiningSlot, .sendDatagram 73 (DatagramIterator.create [42] 200), .flush 74 true,
    .doAdvertise joiningSlot]

theorem opted_out_joins_twice :
    (runOps optedOutCalls optedOutNode).state.role = .follower ∧
      ∀ b, b ∈ (framesOf optedOutCalls optedOutNode).flatMap Queue.Frame.msgs ∨
          b ∈ (runOps optedOutCalls optedOutNode).link.tx →
        invites b = true → b ∈ optedOutNode.link.tx := by
  refine opted_out_stays_follower (by decide) (by decide) ?_ ?_
  · intro p hp
    simp [optedOutCalls] at hp
  · intro op hop
    simp only [optedOutCalls, List.mem_cons, List.not_mem_nil, or_false] at hop
    rcases hop with rfl | rfl | rfl | rfl <;> exact ⟨rfl, rfl⟩

end OptOut

end LoraMultihop.Multihop.Rotation
