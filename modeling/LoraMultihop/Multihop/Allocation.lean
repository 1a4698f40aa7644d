/- digest: Which followers a clusterhead gives a slot that it listens to. -/

import LoraMultihop.Multihop.Slots

set_option autoImplicit false
set_option relaxedAutoImplicit false

namespace LoraMultihop.Multihop.Allocation

open LoraMultihop.Foundation.ByteMemory (Bytes)
open LoraMultihop.Net.Params
open LoraMultihop.Link
open LoraMultihop.Link.Layer (hashCdmaCode)
open LoraMultihop.Multihop.Messages
open LoraMultihop.Multihop.State
open LoraMultihop.Multihop.Sending
open LoraMultihop.Multihop.Slots

private theorem ofInt_natCast (x : Nat) : UInt8.ofInt (x : Int) = UInt8.ofNat x := by
  rw [UInt8.ofInt]
  apply UInt8.toNat_inj.mp
  simp only [UInt8.toNat_ofNat']
  omega

section Window

variable {mac : MacParams}

/-- The slot count that `init` asks for, and a reuse distance. -/
structure Windowed (mac : MacParams) : Prop where
  reuse : 1 ≤ mac.reuseDistance
  count : 1 ≤ mac.superframeSlotCount

theorem vtdmaWindowSize_toNat (h : Windowed mac) :
    (vtdmaWindowSize mac).toNat =
      (mac.superframeSlotCount.toNat - 1) / mac.reuseDistance.toNat := by
  have hc := UInt8.le_iff_toNat_le.mp h.count
  have hlt := mac.superframeSlotCount.toNat_lt
  have hle := Nat.div_le_self (mac.superframeSlotCount.toNat - 1) mac.reuseDistance.toNat
  have hcast : (mac.superframeSlotCount.toNat : Int) - ADV_SLOTS.toNat =
      ((mac.superframeSlotCount.toNat - 1 : Nat) : Int) := by
    have hone : ADV_SLOTS.toNat = 1 := rfl
    have hone' : (1 : UInt8).toNat = 1 := rfl
    omega
  rw [vtdmaWindowSize, hcast, ← Int.ofNat_tdiv, ofInt_natCast,
    UInt8.toNat_ofNat_of_lt' (by simp only [UInt8.size]; omega)]

theorem downstreamStart_eq (h : Windowed mac) (ring : Ring) :
    let index := mac.reuseDistance.toNat - 1 - ring.toNat % mac.reuseDistance.toNat
    (ADV_SLOTS + (mac.reuseDistance - 1 - ring % mac.reuseDistance) * vtdmaWindowSize mac).toNat =
        1 + index * (vtdmaWindowSize mac).toNat ∧
      (index + 1) * (vtdmaWindowSize mac).toNat ≤ mac.superframeSlotCount.toNat - 1 := by
  intro index
  have hr := UInt8.le_iff_toNat_le.mp h.reuse
  have hone : (1 : UInt8).toNat = 1 := rfl
  have hlt := mac.superframeSlotCount.toNat_lt
  have hw := vtdmaWindowSize_toNat h
  have hmod : ring.toNat % mac.reuseDistance.toNat < mac.reuseDistance.toNat :=
    Nat.mod_lt _ (by omega)
  have hindex : (mac.reuseDistance - 1 - ring % mac.reuseDistance).toNat = index := by
    rw [UInt8.toNat_sub_of_le, UInt8.toNat_sub_of_le _ _ h.reuse, hone, UInt8.toNat_mod]
    rw [UInt8.le_iff_toNat_le, UInt8.toNat_sub_of_le _ _ h.reuse, UInt8.toNat_mod]
    omega
  have hprod : (index + 1) * (vtdmaWindowSize mac).toNat ≤ mac.superframeSlotCount.toNat - 1 := by
    rw [hw]
    calc (index + 1) * ((mac.superframeSlotCount.toNat - 1) / mac.reuseDistance.toNat)
        ≤ mac.reuseDistance.toNat *
          ((mac.superframeSlotCount.toNat - 1) / mac.reuseDistance.toNat) :=
          Nat.mul_le_mul_right _ (by omega)
      _ ≤ mac.superframeSlotCount.toNat - 1 := Nat.mul_div_le _ _
  refine ⟨?_, hprod⟩
  rw [Nat.add_mul, Nat.one_mul] at hprod
  rw [UInt8.toNat_add, UInt8.toNat_mul, hindex]
  change (1 + _ % 2 ^ 8) % 2 ^ 8 = _
  generalize index * (vtdmaWindowSize mac).toNat = p at hprod
  omega

private theorem downstreamStart_toNat (h : Windowed mac) (ring : Ring) :
    let start :=
      ADV_SLOTS + (mac.reuseDistance - 1 - ring % mac.reuseDistance) * vtdmaWindowSize mac
    1 ≤ start.toNat ∧
      start.toNat + (vtdmaWindowSize mac).toNat ≤ mac.superframeSlotCount.toNat := by
  intro start
  have hc := UInt8.le_iff_toNat_le.mp h.count
  have hone : (1 : UInt8).toNat = 1 := rfl
  obtain ⟨hstart, hfit⟩ := downstreamStart_eq h ring
  rw [Nat.add_mul, Nat.one_mul] at hfit
  rw [hstart]
  omega

end Window

/-- What a clusterhead does with its table between two slots. -/
inductive Op
  | accept (follower : Address) (remote stamp : UInt32)
  | flush (now : UInt32) (sent : Bool)

def Op.exec : Op → Node → Node
  | .accept follower remote stamp, n => (Sending.accept follower remote stamp n).2
  | .flush now sent, n => (Sending.flush now sent n).2.1

/-- A slot granted: the follower, `start_slot` and `relative_slot` of an accepting message. -/
structure Grant where
  follower : Address
  startSlot : UInt8
  relativeSlot : UInt8
  deriving DecidableEq

def grantOf (b : Bytes) : Option Grant :=
  match decodeMsg b with
  | some (⟨_, _, .accept accepted follower startSlot relativeSlot _⟩, _) =>
      if accepted = 0 then none else some ⟨follower, startSlot, relativeSlot⟩
  | _ => none

def Op.grants (op : Op) (n : Node) : List Grant :=
  ((op.exec n).link.tx.drop n.link.tx.length).filterMap grantOf

def runOps (ops : List Op) (n : Node) : Node := ops.foldl (fun n op => op.exec n) n

def grantsOf : List Op → Node → List Grant
  | [], _ => []
  | op :: ops, n => op.grants n ++ grantsOf ops (op.exec n)

/-- The absolute slot of a grant is not the clusterhead's own, the follower transmits in it on the
code of the relative slot, and the clusterhead listens in it on that code. -/
def Served (ch : Node) (g : Grant) : Prop :=
  g.startSlot + g.relativeSlot ≠ sendSlot ch ∧
  listensTo (g.startSlot + g.relativeSlot).toNat ch = some g.relativeSlot ∧
  (∀ f : Node, f.state.upstreamStartSlot = g.startSlot →
    f.state.upstreamRelativeSlot = g.relativeSlot → ∀ slotNow flushNow sent,
    (activeSlot slotNow f).1 = (g.startSlot + g.relativeSlot).toNat →
      (doFollowerSend slotNow flushNow sent f).1 ≠ .invalidSlot ∧
      ∀ frame ∈ (doFollowerSend slotNow flushNow sent f).2.2,
        frame.code = hashCdmaCode g.relativeSlot) ∧
  (∀ inp : RecvInput, (activeSlot inp.slotNow ch).1 = (g.startSlot + g.relativeSlot).toNat →
    (doClusterheadRecv inp ch).1 ≠ .invalidSlot ∧
      (doClusterheadRecv inp ch).2.link.code = hashCdmaCode g.relativeSlot)

def enroll (holder : Address) (asked : List Address) (follower : Address) : List Address :=
  if follower = holder ∨ follower ∈ asked then asked else asked ++ [follower]

def ask (holder : Address) (asked : List Address) : Op → List Address
  | .accept follower _ _ => enroll holder asked follower
  | .flush _ _ => asked

/-- The followers that asked, in the order of their first request; `holder` already has slot 0. -/
def newcomers (holder : Address) (ops : List Op) : List Address := ops.foldl (ask holder) []

/-- The table after the followers `asked` asked, with `w` slots in the window. -/
structure Table (holder : Address) (w : Nat) (start : UInt8) (asked : List Address) (n : Node) :
    Prop where
  ready : n.state.initialized = true
  window : (vtdmaWindowSize n.mac).toNat = w
  start : n.state.downstreamStartSlot = start
  zero : n.state.slotAssignments 0 = holder
  count : n.state.slotsAssigned.toNat = 1 + min asked.length (w - 1)
  entries : ∀ i < min asked.length (w - 1), asked[i]? = some (n.state.slotAssignments (i + 1))
  fresh : holder ∉ asked
  nodup : asked.Nodup

def slotOf (holder : Address) (w : Nat) (asked : List Address) (follower : Address) : Option Nat :=
  if follower = holder then some 0
  else if asked.idxOf follower + 1 < w then some (asked.idxOf follower + 1) else none

section Step

variable {holder : Address} {w : Nat} {start : UInt8} {asked : List Address} {n : Node}
  {follower : Address}

private theorem idxOf_eq {l : List Address} {a : Address} {i : Nat} (hnd : l.Nodup)
    (h : l[i]? = some a) : l.idxOf a = i := by
  obtain ⟨hi, rfl⟩ := List.getElem?_eq_some_iff.mp h
  exact hnd.idxOf_getElem i hi

private theorem Table.assigned_holder (h : Table holder w start asked n) :
    assignedSlot holder n.state = some 0 := by
  have hcount := h.count
  cases ha : assignedSlot holder n.state with
  | none => exact absurd h.zero (assignedSlot_none ha (by omega))
  | some i =>
      obtain ⟨hi, hslot⟩ := assignedSlot_some ha
      cases i with
      | zero => rfl
      | succ i =>
          have hentry := h.entries i (by omega)
          rw [hslot] at hentry
          exact absurd (List.mem_of_getElem? hentry) h.fresh

private theorem Table.assigned_eq (h : Table holder w start asked n) (hne : follower ≠ holder) :
    assignedSlot follower n.state =
      if asked.idxOf follower < min asked.length (w - 1) then some (asked.idxOf follower + 1)
      else none := by
  have hcount := h.count
  cases ha : assignedSlot follower n.state with
  | none =>
      rw [if_neg]
      intro hlt
      have hentry := h.entries _ hlt
      rw [List.getElem?_eq_getElem (by omega), List.getElem_idxOf] at hentry
      exact assignedSlot_none ha (by omega) (Option.some.inj hentry).symm
  | some i =>
      obtain ⟨hi, hslot⟩ := assignedSlot_some ha
      cases i with
      | zero => exact absurd (hslot.symm.trans h.zero) hne
      | succ i =>
          have hentry := h.entries i (by omega)
          rw [hslot] at hentry
          have hidx := idxOf_eq h.nodup hentry
          rw [hidx, if_pos (by omega)]

private theorem Table.slotFor_eq (h : Table holder w start asked n) :
    slotFor follower n =
      (slotOf holder w (enroll holder asked follower) follower).map UInt8.ofNat := by
  have hcount := h.count
  have hwindow := h.window
  by_cases hhold : follower = holder
  · rw [slotFor, hhold, h.assigned_holder, slotOf, if_pos rfl]
    rfl
  have hfull : vtdmaWindowSize n.mac ≤ n.state.slotsAssigned ↔
      w ≤ 1 + min asked.length (w - 1) := by
    rw [UInt8.le_iff_toNat_le, hcount, hwindow]
  rw [slotFor, h.assigned_eq hhold, slotOf, if_neg hhold, enroll]
  by_cases hmem : follower ∈ asked
  · have hidx := List.idxOf_lt_length_of_mem hmem
    rw [if_pos (Or.inr hmem : follower = holder ∨ follower ∈ asked)]
    by_cases hlt : asked.idxOf follower < w - 1
    · rw [if_pos (show asked.idxOf follower < min asked.length (w - 1) by omega),
        if_pos (show asked.idxOf follower + 1 < w by omega)]
      rfl
    · rw [if_neg (show ¬ asked.idxOf follower < min asked.length (w - 1) by omega),
        if_neg (show ¬ asked.idxOf follower + 1 < w by omega)]
      dsimp only
      rw [if_pos (hfull.mpr (by omega))]
      rfl
  · have hidx : asked.idxOf follower = asked.length := List.idxOf_eq_length hmem
    have hidx' : (asked ++ [follower]).idxOf follower = asked.length := by
      rw [List.idxOf_append_of_notMem hmem]
      simp
    rw [if_neg (not_or.mpr ⟨hhold, hmem⟩), hidx',
      if_neg (show ¬ asked.idxOf follower < min asked.length (w - 1) by omega)]
    dsimp only
    by_cases hlt : asked.length < w - 1
    · have hroom : ¬ vtdmaWindowSize n.mac ≤ n.state.slotsAssigned := by
        intro hle
        have := hfull.mp hle
        omega
      rw [if_neg hroom, if_pos (show asked.length + 1 < w by omega), Option.map_some]
      congr 1
      apply UInt8.toNat_inj.mp
      have := n.state.slotsAssigned.toNat_lt
      rw [UInt8.toNat_ofNat_of_lt' (by simp only [UInt8.size]; omega)]
      omega
    · rw [if_pos (hfull.mpr (by omega)), if_neg (show ¬ asked.length + 1 < w by omega)]
      rfl

private theorem Table.full (h : Table holder w start asked n) (hfull : w - 1 ≤ asked.length)
    (hhold : follower ≠ holder) (hmem : follower ∉ asked) :
    Table holder w start (asked ++ [follower]) n := by
  have hcount := h.count
  refine ⟨h.ready, h.window, h.start, h.zero, ?_, ?_, ?_, ?_⟩
  · rw [List.length_append, List.length_singleton]
    omega
  · intro i hi
    rw [List.length_append, List.length_singleton] at hi
    rw [List.getElem?_append_left (by omega)]
    exact h.entries i (by omega)
  · simpa [h.fresh] using hhold.symm
  · simpa using List.Nodup.concat hmem h.nodup

private theorem Table.grow (h : Table holder w start asked n) (hroom : asked.length < w - 1)
    (hhold : follower ≠ holder) (hmem : follower ∉ asked) :
    Table holder w start (asked ++ [follower])
      { n with
        state :=
          { n.state with
            slotAssignments := fun i =>
              if i = n.state.slotsAssigned.toNat then follower else n.state.slotAssignments i
            slotsAssigned := n.state.slotsAssigned + 1 } } := by
  have hcount := h.count
  have hw := (vtdmaWindowSize n.mac).toNat_lt
  rw [h.window] at hw
  have hslots : (n.state.slotsAssigned + 1).toNat = n.state.slotsAssigned.toNat + 1 := by
    have hone : (1 : UInt8).toNat = 1 := rfl
    rw [UInt8.toNat_add]
    omega
  refine ⟨h.ready, h.window, h.start, ?_, ?_, ?_, ?_, ?_⟩
  · dsimp only
    rw [if_neg (by omega)]
    exact h.zero
  · dsimp only
    rw [hslots, List.length_append, List.length_singleton]
    omega
  · intro i hi
    dsimp only
    rw [List.length_append, List.length_singleton] at hi
    by_cases hlast : i = asked.length
    · subst hlast
      rw [if_pos (by omega), List.getElem?_append_right le_rfl, Nat.sub_self]
      rfl
    · rw [if_neg (by omega), List.getElem?_append_left (by omega)]
      exact h.entries i (by omega)
  · simpa [h.fresh] using hhold.symm
  · simpa using List.Nodup.concat hmem h.nodup

private theorem Table.assign (h : Table holder w start asked n) :
    Table holder w start (enroll holder asked follower) (Sending.assign follower n) := by
  have hcount := h.count
  have hwindow := h.window
  rw [Sending.assign, enroll]
  by_cases hhold : follower = holder
  · rw [if_pos (Or.inl hhold), hhold, h.assigned_holder]
    exact h
  by_cases hmem : follower ∈ asked
  · have hidx := List.idxOf_lt_length_of_mem hmem
    rw [if_pos (Or.inr hmem : follower = holder ∨ follower ∈ asked), if_neg]
    · exact h
    · rintro ⟨hnone, hlt⟩
      rw [UInt8.lt_iff_toNat_lt, hcount, hwindow] at hlt
      rw [h.assigned_eq hhold, if_pos (by omega)] at hnone
      exact absurd hnone (by simp)
  · have hidx : asked.idxOf follower = asked.length := List.idxOf_eq_length hmem
    have hnone : assignedSlot follower n.state = none := by
      rw [h.assigned_eq hhold, if_neg (by omega)]
    rw [if_neg (not_or.mpr ⟨hhold, hmem⟩)]
    by_cases hroom : asked.length < w - 1
    · rw [if_pos ⟨hnone, by rw [UInt8.lt_iff_toNat_lt, hcount, hwindow]; omega⟩]
      exact h.grow hroom hhold hmem
    · rw [if_neg (by rw [UInt8.lt_iff_toNat_lt, hcount, hwindow]; omega)]
      exact h.full (by omega) hhold hmem

end Step

private theorem accept_grants {follower : Address} {remote stamp : UInt32} {n : Node}
    (hi : n.state.initialized = true) (g : Grant) :
    g ∈ (Op.accept follower remote stamp).grants n ↔
      Room 14 n ∧ slotFor follower n = some g.relativeSlot ∧ g.follower = follower ∧
        g.startSlot = n.state.downstreamStartSlot := by
  have htx : (Sending.assign follower n).link.tx = n.link.tx := by
    rw [Sending.assign]
    split <;> rfl
  have hmsg : grantOf (acceptMessage follower remote stamp n).toBytes =
      (slotFor follower n).map fun rel => ⟨follower, n.state.downstreamStartSlot, rel⟩ := by
    have hfits : (acceptMessage follower remote stamp n).body.Fits [] := by
      rw [acceptMessage]
      split <;> rfl
    have hdecode := decodeMsg_toBytes hfits
    rw [List.append_nil] at hdecode
    rw [grantOf, hdecode, acceptMessage]
    cases slotFor follower n <;> rfl
  rw [Op.grants]
  rcases accept_cases follower remote stamp hi with ⟨hn, hroom⟩ | ⟨hn, hroom⟩
  · simp only [Op.exec, hn, push_tx, htx, List.drop_left, List.filterMap_cons, hmsg,
      List.filterMap_nil]
    cases slotFor follower n with
    | none => simp
    | some rel =>
        obtain ⟨f, start, rel'⟩ := g
        simp only [Option.map_some, List.mem_singleton, Grant.mk.injEq, Option.some.injEq, hroom,
          true_and]
        constructor
        · rintro ⟨rfl, rfl, rfl⟩
          exact ⟨rfl, rfl, rfl⟩
        · rintro ⟨rfl, rfl, rfl⟩
          exact ⟨rfl, rfl, rfl⟩
  · simp only [Op.exec, hn, htx, List.drop_length, List.filterMap_nil, hroom, false_and]
    simp

private theorem flush_tx_le (now : UInt32) (sent : Bool) (n : Node) :
    (Sending.flush now sent n).2.1.state = n.state ∧
      (Sending.flush now sent n).2.1.mac = n.mac ∧
      (Sending.flush now sent n).2.1.link.tx.length ≤ n.link.tx.length := by
  by_cases hg : GoesOut now sent n
  · rw [flush_out hg]
    exact ⟨rfl, rfl, Nat.zero_le _⟩
  · obtain ⟨-, -, w, hw⟩ := flush_kept hg
    rw [hw]
    exact ⟨rfl, rfl, le_rfl⟩

private theorem flush_grants (now : UInt32) (sent : Bool) (n : Node) :
    (Op.flush now sent).grants n = [] := by
  rw [Op.grants, Op.exec, List.drop_eq_nil_of_le (flush_tx_le now sent n).2.2, List.filterMap_nil]

section Run

variable {holder : Address} {w : Nat} {start : UInt8} {asked : List Address} {n : Node}

private theorem Table.congr {m : Node} (h : Table holder w start asked n)
    (hstate : m.state = n.state) (hmac : m.mac = n.mac) : Table holder w start asked m where
  ready := hstate ▸ h.ready
  window := hmac ▸ h.window
  start := hstate ▸ h.start
  zero := hstate ▸ h.zero
  count := hstate ▸ h.count
  entries := hstate ▸ h.entries
  fresh := h.fresh
  nodup := h.nodup

private theorem Table.step (h : Table holder w start asked n) (op : Op) :
    Table holder w start (ask holder asked op) (op.exec n) := by
  cases op with
  | accept follower remote stamp =>
      rcases accept_cases follower remote stamp h.ready with ⟨hn, -⟩ | ⟨hn, -⟩
      · rw [Op.exec, hn]
        exact h.assign.congr rfl rfl
      · rw [Op.exec, hn]
        exact h.assign
  | flush now sent =>
      obtain ⟨hstate, hmac, -⟩ := flush_tx_le now sent n
      exact h.congr hstate hmac

private theorem Table.run (h : Table holder w start asked n) (ops : List Op) :
    Table holder w start (ops.foldl (ask holder) asked) (runOps ops n) := by
  induction ops generalizing asked n with
  | nil => exact h
  | cons op ops ih => exact ih (h.step op)

private theorem asked_le (ops : List Op) (asked : List Address) :
    asked.length ≤ (ops.foldl (ask holder) asked).length := by
  induction ops generalizing asked with
  | nil => exact le_rfl
  | cons op ops ih =>
      refine le_trans ?_ (ih _)
      cases op with
      | accept follower remote stamp =>
          rw [ask, enroll]
          split
          · exact le_rfl
          · simp
      | flush now sent => exact le_rfl

end Run

private theorem mem_grantsOf {g : Grant} {ops : List Op} {n : Node} :
    g ∈ grantsOf ops n ↔
      ∃ pre op post, ops = pre ++ op :: post ∧ g ∈ op.grants (runOps pre n) := by
  induction ops generalizing n with
  | nil => simp [grantsOf]
  | cons op ops ih =>
      rw [grantsOf, List.mem_append, ih]
      constructor
      · rintro (hg | ⟨pre, op', post, rfl, hg⟩)
        · exact ⟨[], op, ops, rfl, hg⟩
        · exact ⟨op :: pre, op', post, rfl, hg⟩
      · rintro ⟨pre, op', post, heq, hg⟩
        cases pre with
        | nil =>
            obtain ⟨rfl, rfl⟩ := List.cons.inj heq
            exact Or.inl hg
        | cons op'' pre =>
            obtain ⟨rfl, rfl⟩ := List.cons.inj heq
            exact Or.inr ⟨pre, op', post, rfl, hg⟩

private theorem newcomers_snoc (holder : Address) (pre : List Op) (follower : Address)
    (remote stamp : UInt32) :
    newcomers holder (pre ++ [.accept follower remote stamp]) =
      enroll holder (pre.foldl (ask holder) []) follower := by
  rw [newcomers, List.foldl_append]
  rfl

private theorem Table.mem_grants {holder : Address} {w : Nat} {start : UInt8} {n : Node}
    (h : Table holder w start [] n) {ops : List Op} {g : Grant} :
    g ∈ grantsOf ops n ↔
      ∃ pre follower remote stamp post k,
        ops = pre ++ Op.accept follower remote stamp :: post ∧ Room 14 (runOps pre n) ∧
          slotOf holder w (newcomers holder (pre ++ [.accept follower remote stamp])) follower =
            some k ∧
          g = ⟨follower, start, UInt8.ofNat k⟩ := by
  rw [mem_grantsOf]
  constructor
  · rintro ⟨pre, op, post, heq, hg⟩
    cases op with
    | flush now sent =>
        rw [flush_grants] at hg
        exact absurd hg List.not_mem_nil
    | accept follower remote stamp =>
        have hpre := h.run pre
        rw [accept_grants hpre.ready] at hg
        obtain ⟨hroom, hslot, rfl, hstart⟩ := hg
        rw [hpre.slotFor_eq, ← newcomers_snoc holder pre g.follower remote stamp] at hslot
        obtain ⟨k, hk, hrel⟩ := Option.map_eq_some_iff.mp hslot
        refine ⟨pre, g.follower, remote, stamp, post, k, heq, hroom, hk, ?_⟩
        rw [hrel, ← hpre.start, ← hstart]
  · rintro ⟨pre, follower, remote, stamp, post, k, heq, hroom, hk, rfl⟩
    have hpre := h.run pre
    refine ⟨pre, _, post, heq, ?_⟩
    rw [accept_grants hpre.ready]
    refine ⟨hroom, ?_, rfl, hpre.start.symm⟩
    rw [hpre.slotFor_eq, ← newcomers_snoc holder pre follower remote stamp, hk]
    rfl

private theorem served_iff {holder : Address} {w : Nat} {start : UInt8} {asked : List Address}
    {n : Node}
    (h : Table holder w start asked n) (hstart : 1 ≤ start.toNat) (hfit : start.toNat + w ≤ 255)
    {g : Grant} (hg : g.startSlot = start) (hrel : g.relativeSlot < n.state.slotsAssigned) :
    Served n g ↔ 1 ≤ g.relativeSlot.toNat ∧ g.relativeSlot.toNat + 1 < w := by
  have hcount := h.count
  have hwindow := h.window
  have hlt := UInt8.lt_iff_toNat_lt.mp hrel
  have hone : (1 : UInt8).toNat = 1 := rfl
  have hsum : (g.startSlot + g.relativeSlot).toNat = start.toNat + g.relativeSlot.toNat := by
    rw [hg, UInt8.toNat_add]
    omega
  have hsend : (sendSlot n).toNat = start.toNat + w - 1 := by
    have hadd : (n.state.downstreamStartSlot + vtdmaWindowSize n.mac).toNat = start.toNat + w := by
      rw [h.start, UInt8.toNat_add, hwindow]
      omega
    rw [sendSlot, UInt8.toNat_sub_of_le, hadd]
    · rfl
    · rw [UInt8.le_iff_toNat_le, hadd, hone]
      omega
  have hlistens : listensTo (g.startSlot + g.relativeSlot).toNat n =
      if 1 ≤ g.relativeSlot.toNat ∧ g.relativeSlot.toNat + 1 < w then some g.relativeSlot
      else none := by
    have hdiff : ((start.toNat + g.relativeSlot.toNat : Nat) : Int) - start.toNat =
        (g.relativeSlot.toNat : Int) := by
      push_cast
      omega
    rw [listensTo, h.start, hsum, hsend]
    by_cases hin : 1 ≤ g.relativeSlot.toNat ∧ g.relativeSlot.toNat + 1 < w
    · rw [if_neg (by omega), if_pos hin]
      dsimp only
      rw [hdiff, ofInt_natCast, UInt8.ofNat_toNat, if_neg (UInt8.not_le.mpr hrel)]
    · rw [if_pos (by omega), if_neg hin]
  constructor
  · rintro ⟨-, hl, -⟩
    rw [hlistens] at hl
    by_contra hno
    rw [if_neg hno] at hl
    exact absurd hl (by simp)
  · intro hin
    rw [if_pos hin] at hlistens
    refine ⟨?_, hlistens, ?_, ?_⟩
    · intro heq
      rw [← heq, hsum] at hsend
      omega
    · intro f hf hf' slotNow flushNow sent hslot
      have hmine : mySlot f.state = g.startSlot + g.relativeSlot := by rw [mySlot, hf, hf']
      refine ⟨doFollowerSend_rc (by rw [hmine]; exact hslot), ?_⟩
      intro frame hframe
      rw [← hf']
      exact (doFollowerSend_frames hframe).2
    · intro inp hslot
      exact doClusterheadRecv_listens (by rw [hslot]; exact hlistens)

/-- The address that `prepare_clusterhead` leaves in slot 0. -/
def slotZero (s : MultihopState) : Address :=
  if s.slotCount % 256 = 1 then s.address else GATEWAY_ADDR

private theorem prepare_table {n : Node} (hi : n.state.initialized = true)
    (hc : 1 ≤ n.state.slotCount) : Table (slotZero n.state) (vtdmaWindowSize n.mac).toNat
      (prepareClusterhead n).state.downstreamStartSlot [] (prepareClusterhead n) := by
  refine ⟨hi, rfl, rfl, ?_, rfl, ?_, List.not_mem_nil, List.nodup_nil⟩
  · have hstop : 0 = (UInt8.ofNat n.state.slotCount - 1).toNat ↔ n.state.slotCount % 256 = 1 := by
      have hone : (1 : UInt8).toNat = 1 := rfl
      rw [UInt8.toNat_sub, hone, UInt8.toNat_ofNat']
      omega
    simp only [prepareClusterhead, slotZero, hstop]
    split_ifs
    · rfl
    · rfl
    · omega
  · intro i hi
    simp at hi

private theorem slotOf_le {holder : Address} {w k : Nat} {asked : List Address} {follower : Address}
    (hmem : follower = holder ∨ follower ∈ asked) (h : slotOf holder w asked follower = some k) :
    k ≤ min asked.length (w - 1) := by
  rw [slotOf] at h
  split_ifs at h with hhold hlt
  · obtain rfl := Option.some.inj h
    exact Nat.zero_le _
  · obtain rfl := Option.some.inj h
    have hidx := List.idxOf_lt_length_of_mem (hmem.resolve_left hhold)
    omega

private theorem mem_enroll (holder : Address) (asked : List Address) (follower : Address) :
    follower = holder ∨ follower ∈ enroll holder asked follower := by
  rw [enroll]
  split_ifs with h
  · exact h
  · exact Or.inr (by simp)

private theorem slotOf_inside_iff {holder : Address} {w : Nat} {asked : List Address}
    {follower : Address} (hnodup : asked.Nodup) (hmem : follower = holder ∨ follower ∈ asked) :
    (∀ k, slotOf holder w asked follower = some k → 1 ≤ k ∧ k + 1 < w) ↔
      follower ≠ holder ∧ ¬ (2 ≤ w ∧ asked[w - 2]? = some follower) := by
  by_cases hhold : follower = holder
  · refine iff_of_false ?_ fun h => h.1 hhold
    intro h
    have hzero := h 0 (by rw [slotOf, if_pos hhold])
    omega
  · have hlt := List.idxOf_lt_length_of_mem (hmem.resolve_left hhold)
    have hidx : asked[w - 2]? = some follower ↔ asked.idxOf follower = w - 2 := by
      refine ⟨idxOf_eq hnodup, ?_⟩
      intro h
      rw [← h, List.getElem?_eq_getElem hlt, List.getElem_idxOf]
    rw [hidx, slotOf, if_neg hhold]
    constructor
    · intro h
      refine ⟨hhold, ?_⟩
      rintro ⟨htwo, hlast⟩
      have hend := h (w - 1) (by rw [if_pos (by omega)]; congr 1; omega)
      omega
    · rintro ⟨-, hlast⟩ k hk
      split_ifs at hk with hroom
      obtain rfl := Option.some.inj hk
      omega

/-- The grants of a whole run, each served or not by the slot it names. -/
private theorem served_of_run {holder : Address} {w : Nat} {start : UInt8} {n : Node}
    (h : Table holder w start [] n) (hstart : 1 ≤ start.toNat) (hfit : start.toNat + w ≤ 255)
    {pre : List Op} (post : List Op) {follower : Address} {remote stamp : UInt32} {k : Nat}
    (hk : slotOf holder w (newcomers holder (pre ++ [.accept follower remote stamp])) follower =
      some k) :
    Served (runOps (pre ++ .accept follower remote stamp :: post) n)
        ⟨follower, start, UInt8.ofNat k⟩ ↔ 1 ≤ k ∧ k + 1 < w := by
  have hfinal := h.run (pre ++ .accept follower remote stamp :: post)
  have hcount := hfinal.count
  rw [newcomers, List.foldl_append, List.foldl_cons, List.foldl_nil] at hk
  rw [List.foldl_append, List.foldl_cons] at hcount
  have hle := slotOf_le (mem_enroll holder (pre.foldl (ask holder) []) follower) hk
  have hgrow : (enroll holder (pre.foldl (ask holder) []) follower).length ≤
      (post.foldl (ask holder)
        (ask holder (pre.foldl (ask holder) []) (.accept follower remote stamp))).length :=
    asked_le post _
  have hto : (UInt8.ofNat k).toNat = k :=
    UInt8.toNat_ofNat_of_lt' (by simp only [UInt8.size]; omega)
  rw [served_iff hfinal hstart hfit rfl]
  · rw [hto]
  · rw [UInt8.lt_iff_toNat_lt]
    dsimp only
    rw [hto, hcount]
    omega

/-- Every follower accepted is served exactly if no request that gets through is the one for the
last slot of the window, nor the clusterhead's own where it holds slot 0. -/
theorem grants_served_iff (n : Node) (hmac : Windowed n.mac)
    (hrole : n.state.actsAsClusterhead = true) (hcount : 1 ≤ n.state.slotCount) (ops : List Op)
    (hfollowers : ∀ follower remote stamp, Op.accept follower remote stamp ∈ ops →
      follower ≠ GATEWAY_ADDR) :
    (∀ g ∈ grantsOf ops (prepareClusterhead n), Served (runOps ops (prepareClusterhead n)) g) ↔
      ∀ pre follower remote stamp post,
        ops = pre ++ Op.accept follower remote stamp :: post →
        Room 14 (runOps pre (prepareClusterhead n)) →
          ¬ (n.state.slotCount % 256 = 1 ∧ follower = n.state.address) ∧
          ¬ (2 ≤ (vtdmaWindowSize n.mac).toNat ∧
            (newcomers (slotZero n.state) (pre ++ [Op.accept follower remote stamp]))[
              (vtdmaWindowSize n.mac).toNat - 2]? = some follower) := by
  have hi : n.state.initialized = true := by
    simp only [MultihopState.initialized, MultihopState.actsAsClusterhead, Bool.or_eq_true,
      decide_eq_true_eq] at hrole ⊢
    rcases hrole with h | h <;> simp [h]
  have htable := prepare_table hi hcount
  obtain ⟨hstart, hfit⟩ := downstreamStart_toNat hmac n.state.ring
  have hlt := n.mac.superframeSlotCount.toNat_lt
  change 1 ≤ (prepareClusterhead n).state.downstreamStartSlot.toNat at hstart
  change (prepareClusterhead n).state.downstreamStartSlot.toNat + _ ≤ _ at hfit
  -- what the condition says of one request is that its slot lies inside the window
  have hcond (pre : List Op) (follower : Address) (remote stamp : UInt32) (post : List Op)
      (heq : ops = pre ++ Op.accept follower remote stamp :: post) :
      (∀ k, slotOf (slotZero n.state) (vtdmaWindowSize n.mac).toNat
          (newcomers (slotZero n.state) (pre ++ [.accept follower remote stamp])) follower =
            some k → 1 ≤ k ∧ k + 1 < (vtdmaWindowSize n.mac).toNat) ↔
        ¬ (n.state.slotCount % 256 = 1 ∧ follower = n.state.address) ∧
          ¬ (2 ≤ (vtdmaWindowSize n.mac).toNat ∧
            (newcomers (slotZero n.state) (pre ++ [Op.accept follower remote stamp]))[
              (vtdmaWindowSize n.mac).toNat - 2]? = some follower) := by
    have hgw : follower ≠ GATEWAY_ADDR := hfollowers follower remote stamp (by rw [heq]; simp)
    have hholder : follower ≠ slotZero n.state ↔
        ¬ (n.state.slotCount % 256 = 1 ∧ follower = n.state.address) := by
      rw [slotZero]
      split_ifs with hmod
      · simp [hmod]
      · simp [hmod, hgw]
    have hmem := mem_enroll (slotZero n.state) (pre.foldl (ask (slotZero n.state)) []) follower
    rw [← newcomers_snoc (slotZero n.state) pre follower remote stamp] at hmem
    rw [← hholder]
    exact slotOf_inside_iff (htable.run (pre ++ [Op.accept follower remote stamp])).nodup hmem
  constructor
  · intro hserved pre follower remote stamp post heq hroom
    apply (hcond pre follower remote stamp post heq).mp
    intro k hk
    rw [← served_of_run htable hstart (by omega) post hk, ← heq]
    exact hserved _ (htable.mem_grants.mpr
      ⟨pre, follower, remote, stamp, post, k, heq, hroom, hk, rfl⟩)
  · intro hinside g hg
    obtain ⟨pre, follower, remote, stamp, post, k, heq, hroom, hk, rfl⟩ :=
      htable.mem_grants.mp hg
    have hk' := (hcond pre follower remote stamp post heq).mpr
      (hinside pre follower remote stamp post heq hroom) k hk
    rw [heq, served_of_run htable hstart (by omega) post hk]
    exact hk'

/-- A ring 1 clusterhead of the node program, in its first window. -/
def ringOneHead : Node where
  state :=
    { MultihopState.new with
      address := 1
      ring := 1
      role := .clusterhead
      slotCount := 22 }
  link :=
    { initialized := true
      mac := setupMac
      macState := ⟨71, 137⟩
      msgMaxBytes := setupLink.msgMaxBytes
      txSz := setupLink.txSz
      code := 6
      tx := []
      rx := [] }

theorem first_follower_served :
    ⟨10, 8, 1⟩ ∈ grantsOf [.accept 10 72 72] (prepareClusterhead ringOneHead) ∧
      Served (runOps [.accept 10 72 72] (prepareClusterhead ringOneHead)) ⟨10, 8, 1⟩ := by
  have hgrant : ⟨10, 8, 1⟩ ∈ grantsOf [.accept 10 72 72] (prepareClusterhead ringOneHead) := by
    decide +kernel
  refine ⟨hgrant, (grants_served_iff ringOneHead ⟨by decide, by decide⟩ (by decide) (by decide)
    [.accept 10 72 72] ?_).mpr
      ?_ _ hgrant⟩
  · intro follower remote stamp h
    obtain ⟨rfl, -⟩ := Op.accept.inj (List.mem_singleton.mp h)
    decide
  · intro pre follower remote stamp post heq _
    cases pre with
    | nil =>
        obtain ⟨hop, -⟩ := List.cons.inj heq
        obtain ⟨rfl, rfl, rfl⟩ := Op.accept.inj hop
        exact ⟨by decide, by decide⟩
    | cons op pre => simp at heq

/-- The sixth follower of a seven-slot window gets the slot of the acks. -/
theorem sixth_follower_not_served :
    ¬ ∀ g ∈ grantsOf ([10, 11, 12, 13, 14, 15].map fun f => .accept f 72 72)
        (prepareClusterhead ringOneHead),
      Served (runOps ([10, 11, 12, 13, 14, 15].map fun f => .accept f 72 72)
        (prepareClusterhead ringOneHead)) g := by
  intro h
  have hserved := h ⟨15, 8, 6⟩ (by decide +kernel)
  exact hserved.1 (by decide +kernel)

end LoraMultihop.Multihop.Allocation
