/- digest: What the failed attempts of an announcement phase leave for the one that succeeds. -/

import LoraMultihop.Multihop.Announcement
import LoraMultihop.Multihop.Codec

set_option autoImplicit false
set_option relaxedAutoImplicit false

namespace LoraMultihop.Multihop.Retries

open LoraMultihop.Foundation.ByteMemory (Bytes)
open LoraMultihop.Net.Params
open LoraMultihop.Link
open LoraMultihop.Multihop.Messages
open LoraMultihop.Multihop.State
open LoraMultihop.Multihop.Sending
open LoraMultihop.Multihop.Discovery
open LoraMultihop.Multihop.Advertise
open LoraMultihop.Multihop.Announcement
open LoraMultihop.Multihop.Codec

def OPEN_CLUSTER_SZ : Nat := HEADER_SZ + 11

def announcement (stamp : UInt32) (n : Node) : Bytes :=
  Message.toBytes
    ⟨stamp, n.state.address, .openCluster n.state.ring n.state.address n.state.neighbors⟩

def isOpenCluster (b : Bytes) : Bool := (announced b).isSome

section Passes

variable (p : Pass)

def waited : Node := (recv (p.inp.now 0) p.inp.arrival p.node).2

def frames : List Queue.Frame := (announcementPass p.inp p.locals p.node).2.2

def due : Bool := p.locals.announceDeadline.reached (p.inp.millis 1)

/-- The pass finds it reached, and a radio send in it would succeed. -/
def Ready : Prop := due p = true ∧ GoesOut (p.inp.now 2) p.inp.sent (waited p)

/-- The node's announcement goes out, in a frame with no other OpenCluster. -/
def AnnouncedOnce : Prop :=
  ∃ f ∈ frames p, ∃ stamp, f.msgs.filter isOpenCluster = [announcement stamp p.node]

end Passes

/-- What no pass of the loop changes. -/
def Kept (n n' : Node) : Prop :=
  n'.state = n.state ∧ n'.link.initialized = n.link.initialized ∧
    n'.link.msgMaxBytes = n.link.msgMaxBytes ∧ n'.link.txSz = n.link.txSz

private theorem Kept.refl (n : Node) : Kept n n := ⟨rfl, rfl, rfl, rfl⟩

private theorem Kept.trans {n n' n'' : Node} (h : Kept n n') (h' : Kept n' n'') : Kept n n'' := by
  obtain ⟨h1, h2, h3, h4⟩ := h
  obtain ⟨h1', h2', h3', h4'⟩ := h'
  exact ⟨h1'.trans h1, h2'.trans h2, h3'.trans h3, h4'.trans h4⟩

private theorem Kept.room {n n' : Node} (h : Kept n n') (htx : n'.link.tx = n.link.tx) (len : Nat) :
    Room len n' ↔ Room len n := by
  obtain ⟨-, h2, h3, h4⟩ := h
  rw [Room, Room, Queue.txBytesAvailable, Queue.txBytesAvailable, h2, h3, h4, htx]

private theorem Kept.announcement {n n' : Node} (h : Kept n n') (stamp : UInt32) :
    announcement stamp n' = announcement stamp n := by
  rw [Retries.announcement, Retries.announcement, h.1]

private theorem isOpenCluster_announcement (stamp : UInt32) (n : Node) :
    isOpenCluster (announcement stamp n) = true := by
  let m : Message :=
    ⟨stamp, n.state.address, .openCluster n.state.ring n.state.address n.state.neighbors⟩
  have hdecode := decodeMsg_toBytes (show m.body.Fits [] from rfl)
  rw [List.append_nil] at hdecode
  rw [isOpenCluster, announced, announcement, hdecode]
  rfl

private theorem waited_kept (p : Pass) :
    Kept p.node (waited p) ∧ (waited p).link.tx = p.node.link.tx := by
  change Kept p.node
      { p.node with link := (Queue.recv (p.inp.now 0) p.inp.arrival p.node.link).2 } ∧
    (Queue.recv (p.inp.now 0) p.inp.arrival p.node.link).2.tx = _
  rcases Queue.recv_cases (p.inp.now 0) p.inp.arrival p.node.link with ⟨-, w, hs⟩ | ⟨-, w, hs⟩
  · rw [hs]
    exact ⟨⟨rfl, rfl, rfl, rfl⟩, rfl⟩
  · rw [hs]
    exact ⟨⟨rfl, rfl, rfl, rfl⟩, rfl⟩

private theorem openCluster_cases (stamp : UInt32) {n : Node} (hi : n.state.initialized = true) :
    (openCluster stamp n).1 = .ok ∧ Room OPEN_CLUSTER_SZ n ∧
        (openCluster stamp n).2 = n.push (announcement stamp n) ∨
      (openCluster stamp n).1 ≠ .ok ∧ ¬ Room OPEN_CLUSTER_SZ n ∧ (openCluster stamp n).2 = n := by
  rw [openCluster, if_neg (by simp [hi])]
  have hcases := send_cases ⟨stamp, n.state.address,
    .openCluster n.state.ring n.state.address n.state.neighbors⟩ [] n
  rw [List.append_nil, toBytes_length] at hcases
  exact hcases

section Attempts

variable {inp : Input} {l : AnnounceLocals} {n : Node}

private theorem announceCluster_early (hno : ¬ l.announceDeadline.reached (inp.millis 1) = true) :
    announceCluster inp l n = (l, n, []) := by
  rw [announceCluster, if_neg]
  intro hdue
  exact hno (Bool.and_eq_true_iff.mp hdue).2

private theorem announceCluster_failed (hi : n.state.initialized = true)
    (hneed : l.needToAnnounce = true) (hdue : l.announceDeadline.reached (inp.millis 1) = true)
    (hno : ¬ GoesOut (inp.now 2) inp.sent n) :
    Kept n (announceCluster inp l n).2.1 ∧
      (Room OPEN_CLUSTER_SZ n ∧ (announceCluster inp l n).2.1.link.tx =
          n.link.tx ++ [announcement (inp.now 1) n] ∨
        ¬ Room OPEN_CLUSTER_SZ n ∧ (announceCluster inp l n).2.1.link.tx = n.link.tx) := by
  rw [announceCluster, if_pos (by rw [hneed, hdue]; rfl)]
  dsimp only
  rcases openCluster_cases (inp.now 1) hi with ⟨hok, hroom, hn⟩ | ⟨hfail, hroom, hn⟩
  · rw [if_pos hok, hn]
    obtain ⟨-, -, w, hw⟩ := flush_kept fun hout =>
      hno ((@goesOut_push _ _ (announcement (inp.now 1) n) _).mp hout)
    rw [hw]
    exact ⟨⟨rfl, rfl, rfl, rfl⟩, Or.inl ⟨hroom, rfl⟩⟩
  · rw [if_neg hfail, hn]
    exact ⟨Kept.refl n, Or.inr ⟨hroom, rfl⟩⟩

private theorem announceCluster_out (hneed : l.needToAnnounce = true)
    (hdue : l.announceDeadline.reached (inp.millis 1) = true)
    (hout : GoesOut (inp.now 2) inp.sent n) :
    Room OPEN_CLUSTER_SZ n ∧ (announceCluster inp l n).2.2 =
        [⟨n.link.code, n.link.tx ++ [announcement (inp.now 1) n]⟩] ∨
      ¬ Room OPEN_CLUSTER_SZ n ∧ (announceCluster inp l n).2.2 = [] := by
  rw [announceCluster, if_pos (by rw [hneed, hdue]; rfl)]
  dsimp only
  rcases openCluster_cases (inp.now 1) hout.1 with ⟨hok, hroom, hn⟩ | ⟨hfail, hroom, hn⟩
  · have hpush : GoesOut (inp.now 2) inp.sent (n.push (announcement (inp.now 1) n)) :=
      goesOut_push.mpr hout
    rw [if_pos hok, hn, flush_out hpush]
    exact Or.inl ⟨hroom, rfl⟩
  · rw [if_neg hfail]
    exact Or.inr ⟨hroom, rfl⟩

private theorem pass_queue (hi : n.state.initialized = true) (hneed : l.needToAnnounce = true)
    (hno : ¬ Ready ⟨inp, l, n⟩) :
    Kept n (announcementPass inp l n).2.1 ∧
      (due ⟨inp, l, n⟩ = true ∧ Room OPEN_CLUSTER_SZ n ∧
          (announcementPass inp l n).2.1.link.tx = n.link.tx ++ [announcement (inp.now 1) n] ∨
        ¬ (due ⟨inp, l, n⟩ = true ∧ Room OPEN_CLUSTER_SZ n) ∧
          (announcementPass inp l n).2.1.link.tx = n.link.tx) := by
  obtain ⟨hkept, htx⟩ := waited_kept ⟨inp, l, n⟩
  have hroom := hkept.room htx OPEN_CLUSTER_SZ
  have hnode : (announcementPass inp l n).2.1 =
      drained (announceCluster inp l (waited ⟨inp, l, n⟩)).2.1 := by
    rw [announcementPass_eq, waited]
  have hdrained (n : Node) : (drained n).link.tx = n.link.tx := rfl
  have hkept_drained (n' : Node) (h : Kept n n') : Kept n (drained n') := h
  rw [hnode, hdrained]
  by_cases hdue : due ⟨inp, l, n⟩ = true
  · have hi' : (waited ⟨inp, l, n⟩).state.initialized = true := by
      rw [hkept.1]
      exact hi
    obtain ⟨hkept', hcases⟩ := announceCluster_failed hi' hneed hdue fun hout => hno ⟨hdue, hout⟩
    refine ⟨hkept_drained _ (hkept.trans hkept'), ?_⟩
    rw [hroom, htx, hkept.announcement] at hcases
    rcases hcases with ⟨hfits, hq⟩ | ⟨hfull, hq⟩
    · exact Or.inl ⟨hdue, hfits, hq⟩
    · exact Or.inr ⟨fun h => hfull h.2, hq⟩
  · rw [announceCluster_early hdue]
    exact ⟨hkept_drained _ hkept, Or.inr ⟨fun h => hdue h.1, htx⟩⟩

private theorem pass_still_needed (hi : n.state.initialized = true)
    (hneed : l.needToAnnounce = true) (hno : ¬ Ready ⟨inp, l, n⟩) :
    (announcementPass inp l n).1.needToAnnounce = true ∨
      (announcementPass inp l n).1.isClusterhead = false := by
  have hquiet : announces inp l (recv (inp.now 0) inp.arrival n).2 = false := by
    rw [Bool.eq_false_iff]
    intro hflush
    simp only [announces, Bool.and_eq_true, decide_eq_true_eq] at hflush
    obtain ⟨⟨⟨-, hdue⟩, hopen⟩, hok⟩ := hflush
    have hi' : (recv (inp.now 0) inp.arrival n).2.state.initialized = true := hi
    rcases openCluster_cases (inp.now 1) hi' with ⟨-, -, hn⟩ | ⟨hfail, -, -⟩
    · rw [hn] at hok
      apply hno
      refine ⟨hdue, ?_⟩
      by_contra hlost
      exact (flush_kept fun hout => hlost (goesOut_push.mp hout)).1 hok
    · exact hfail hopen
  rcases announcementPass_locals inp l n with ⟨-, hneed'⟩ | ⟨-, hch, -⟩
  · rw [hneed', hneed, hquiet]
    exact Or.inl rfl
  · exact Or.inr hch

end Attempts

section Runs

variable {inps : List Input} {l : AnnounceLocals} {n : Node} {before after : List Pass} {p : Pass}

private theorem passes_withdrawn (h : l.isClusterhead = false) (hp : p ∈ passes inps l n) :
    p.locals.isClusterhead = false := by
  induction inps generalizing l n with
  | nil => exact absurd hp List.not_mem_nil
  | cons inp inps ih =>
      rcases loop_cases inp inps l n with ⟨hnone, -⟩ | ⟨hsome, -⟩
      · rw [hnone] at hp
        exact absurd hp List.not_mem_nil
      · rw [hsome] at hp
        cases List.mem_cons.mp hp with
        | inl hhere => rwa [hhere]
        | inr hlater =>
            apply ih _ hlater
            rw [Bool.eq_false_iff] at h ⊢
            exact mt (announcementPass_not_raised inp l n).1 h

private theorem passes_queue (hi : n.state.initialized = true) (hneed : l.needToAnnounce = true)
    (hrun : passes inps l n = before ++ p :: after) (hfirst : ∀ q ∈ before, ¬ Ready q)
    (hstays : p.locals.isClusterhead = true) :
    Kept n p.node ∧ p.locals.needToAnnounce = true ∧
      ∃ copies, p.node.link.tx = n.link.tx ++ copies ∧
        (∀ b ∈ copies, isOpenCluster b = true) ∧
        (copies = [] ↔ ¬ (Room OPEN_CLUSTER_SZ n ∧ ∃ q ∈ before, due q = true)) := by
  induction before generalizing inps l n with
  | nil =>
      obtain ⟨hl, hn, -⟩ := passes_cons hrun
      refine ⟨hn ▸ Kept.refl n, hl ▸ hneed, [], ?_, ?_, ?_⟩
      · rw [hn, List.append_nil]
      · exact fun b hb => absurd hb List.not_mem_nil
      · simp
  | cons q before ih =>
      obtain ⟨inp, l', n'⟩ := q
      obtain ⟨hl, hn, inps', hrest⟩ := passes_cons hrun
      dsimp only at hl hn
      subst hl hn
      have hno := hfirst _ List.mem_cons_self
      obtain ⟨hkept, hqueue⟩ := pass_queue hi hneed hno
      have hneed' : (announcementPass inp l' n').1.needToAnnounce = true := by
        cases pass_still_needed hi hneed hno with
        | inl h => exact h
        | inr hwithdrawn =>
            have hp : p ∈ passes inps' (announcementPass inp l' n').1
                (announcementPass inp l' n').2.1 := by
              rw [← hrest]
              exact List.mem_append_right _ List.mem_cons_self
            rw [passes_withdrawn hwithdrawn hp] at hstays
            exact absurd hstays (by simp)
      have hi' : (announcementPass inp l' n').2.1.state.initialized = true := by
        rw [hkept.1]
        exact hi
      obtain ⟨hkept', hneedp, copies, htx, hopen, hnil⟩ := ih hi' hneed' hrest.symm
        fun q hq => hfirst q (List.mem_cons_of_mem _ hq)
      refine ⟨hkept.trans hkept', hneedp, ?_⟩
      rcases hqueue with ⟨hdue, hroom, hq⟩ | ⟨hnot, hq⟩
      · refine ⟨announcement (inp.now 1) n' :: copies, ?_, ?_, ?_⟩
        · rw [htx, hq, List.append_assoc, List.singleton_append]
        · intro b hb
          cases List.mem_cons.mp hb with
          | inl hb =>
              rw [hb]
              exact isOpenCluster_announcement _ _
          | inr hb => exact hopen b hb
        · apply iff_of_false (List.cons_ne_nil _ _)
          exact fun hno' => hno' ⟨hroom, _, List.mem_cons_self, hdue⟩
      · refine ⟨copies, by rw [htx, hq], hopen, ?_⟩
        rw [hnil, hkept.room hq, not_iff_not]
        refine and_congr_right fun hroom => ?_
        simp only [List.mem_cons, exists_eq_or_imp]
        rw [or_iff_right fun hdue => hnot ⟨hdue, hroom⟩]

private theorem announcedOnce_iff_of_ready (hneed : p.locals.needToAnnounce = true)
    (hready : Ready p) (hopen : ∀ b ∈ p.node.link.tx, isOpenCluster b = true) :
    AnnouncedOnce p ↔ Room OPEN_CLUSTER_SZ p.node ∧ p.node.link.tx = [] := by
  obtain ⟨hkept, htx⟩ := waited_kept p
  have hfits := hkept.room htx OPEN_CLUSTER_SZ
  have hframes : frames p = (announceCluster p.inp p.locals (waited p)).2.2 := by
    rw [frames, announcementPass_eq, waited]
  rcases announceCluster_out hneed hready.1 hready.2 with ⟨hfit, hout⟩ | ⟨hfull, hout⟩
  · rw [htx, hkept.announcement] at hout
    rw [AnnouncedOnce, hframes, hout]
    have hall : ∀ b ∈ p.node.link.tx ++ [announcement (p.inp.now 1) p.node],
        isOpenCluster b = true := by
      intro b hb
      cases List.mem_append.mp hb with
      | inl hb => exact hopen b hb
      | inr hb =>
          rw [List.mem_singleton.mp hb]
          exact isOpenCluster_announcement _ _
    constructor
    · rintro ⟨f, hf, stamp, hone⟩
      rw [List.mem_singleton.mp hf, List.filter_eq_self.mpr hall] at hone
      refine ⟨hfits.mp hfit, ?_⟩
      have hlen := congrArg List.length hone
      rw [List.length_append, List.length_singleton, List.length_singleton] at hlen
      exact List.length_eq_zero_iff.mp (Nat.succ_injective hlen)
    · rintro ⟨-, hnil⟩
      refine ⟨_, List.mem_singleton.mpr rfl, p.inp.now 1, ?_⟩
      rw [List.filter_eq_self.mpr hall, hnil, List.nil_append]
  · rw [AnnouncedOnce, hframes, hout]
    apply iff_of_false
    · rintro ⟨f, hf, -⟩
      exact absurd hf List.not_mem_nil
    · exact fun h => hfull (hfits.mpr h.1)

end Runs

private theorem begin_kept (durationMs : UInt32) (eligibleRing : Ring) (c : Call) :
    (c.begin durationMs eligibleRing).2.link = c.node.link ∧
      (c.begin durationMs eligibleRing).1.isClusterhead =
        (c.begin durationMs eligibleRing).1.needToAnnounce := by
  obtain ⟨-, -, hneed⟩ := begin_state durationMs eligibleRing c
  refine ⟨?_, hneed.symm⟩
  rw [Call.begin, startAnnouncement]
  dsimp only
  split_ifs <;> rfl

section Volunteers

variable {c : Call} {durationMs : UInt32} {eligibleRing : Ring} {before after : List Pass}
  {p : Pass}

/-- The first pass in which the announcement is due and a radio send would succeed transmits it
alone exactly if the queue can hold it and the announcement was due in no earlier pass: every
failed attempt leaves its own copy, and once no more copies fit nothing is sent at all. -/
theorem announced_once_iff
    (hvolunteers : (c.begin durationMs eligibleRing).1.needToAnnounce = true)
    (hempty : c.node.link.tx = [])
    (hrun : c.passes durationMs eligibleRing = before ++ p :: after)
    (hstays : p.locals.isClusterhead = true)
    (hready : Ready p) (hfirst : ∀ q ∈ before, ¬ Ready q) :
    AnnouncedOnce p ↔ Room OPEN_CLUSTER_SZ c.node ∧ ∀ q ∈ before, due q = false := by
  obtain ⟨hlink, -⟩ := begin_kept durationMs eligibleRing c
  obtain ⟨hkept, htx⟩ := waited_kept p
  have hmem : p ∈ c.passes durationMs eligibleRing := by
    rw [hrun]
    exact List.mem_append_right _ List.mem_cons_self
  have hi : (c.begin durationMs eligibleRing).2.state.initialized = true := by
    rw [← passes_state hmem, ← hkept.1]
    exact hready.2.1
  obtain ⟨hkept', hneed, copies, hcopies, hopen, hnil⟩ :=
    passes_queue hi hvolunteers hrun hfirst hstays
  have hqueue : p.node.link.tx = copies := by
    rw [hcopies, hlink, hempty, List.nil_append]
  have hroom : Room OPEN_CLUSTER_SZ (c.begin durationMs eligibleRing).2 ↔
      Room OPEN_CLUSTER_SZ c.node := by
    rw [Room, Room, hlink]
  rw [hroom] at hnil
  have hsome : (∃ q ∈ before, due q = true) ↔ ¬ ∀ q ∈ before, due q = false := by
    simp
  rw [hsome] at hnil
  rw [announcedOnce_iff_of_ready hneed hready (hqueue ▸ hopen), hqueue]
  constructor
  · rintro ⟨hfit, rfl⟩
    have hstart : Room OPEN_CLUSTER_SZ c.node := by
      rw [← hroom, ← hkept'.room (by rw [hqueue, hlink, hempty])]
      exact hfit
    refine ⟨hstart, ?_⟩
    by_contra hdue
    exact hnil.mp rfl ⟨hstart, hdue⟩
  · rintro ⟨hstart, hnone⟩
    have hcopies' : copies = [] := hnil.mpr fun h => h.2 hnone
    refine ⟨?_, hcopies'⟩
    rw [hkept'.room (by rw [hqueue, hcopies', hlink, hempty]), hroom]
    exact hstart

end Volunteers

/-- A volunteer of the first ring whose first `k` attempts fail on the radio. -/
def retrying (k : Nat) : Call where
  node := { setupNode 3 with state := { (setupNode 3).state with ring := 1 } }
  start := reading 1000 72 .timedOut
  inputs :=
    List.replicate k { reading 1001 72 .timedOut with sent := false } ++ [reading 1002 72 .timedOut]

private theorem AnnouncedOnce.count {p : Pass} (h : AnnouncedOnce p) :
    ∃ f ∈ frames p, (f.msgs.filter isOpenCluster).length = 1 := by
  obtain ⟨f, hf, stamp, hone⟩ := h
  exact ⟨f, hf, by rw [hone]; rfl⟩

instance (p : Pass) : Decidable (Ready p) := by
  unfold Ready GoesOut Queue.GoesOut
  infer_instance

/-- After one failure two copies go out, and after thirteen nothing does. -/
theorem failed_attempt_is_repeated :
    (¬ ∀ (c : Call) (durationMs : UInt32) (eligibleRing : Ring) (before after : List Pass)
        (p : Pass), (c.begin durationMs eligibleRing).1.needToAnnounce = true →
          c.node.link.tx = [] → c.passes durationMs eligibleRing = before ++ p :: after →
          p.locals.isClusterhead = true → Ready p → (∀ q ∈ before, ¬ Ready q) →
            AnnouncedOnce p) ∧
      ∀ p ∈ (retrying 13).passes 300 1, frames p = [] := by
  constructor
  · intro h
    have hone := h (retrying 1) 300 1 [_] [] _ (by decide +kernel) rfl rfl (by decide +kernel)
      (by decide +kernel) (by decide +kernel)
    exact absurd hone.count (by decide +kernel)
  · decide +kernel

/-- A volunteer whose announcement is due after 50 ms, and who listens twice before that. -/
def patient : Call where
  node := (retrying 0).node
  start := { reading 1000 72 .timedOut with rand := fun i => if i = 0 then 0 else 50 }
  inputs := [1001, 1020, 1100].map fun millis => reading millis 72 .timedOut

/-- A first attempt that succeeds announces the node once. -/
theorem first_attempt_announces_once :
    ∃ q q' p, patient.passes 300 1 = [q, q'] ++ p :: [] ∧ AnnouncedOnce p := by
  have hvolunteers : (patient.begin 300 1).1.needToAnnounce = true := by decide +kernel
  have hroom : Room OPEN_CLUSTER_SZ patient.node := by
    unfold Room
    decide +kernel
  have hiff := announced_once_iff (p := _) hvolunteers rfl
    (show _ = [_, _] ++ _ :: [] from rfl) (by decide +kernel) (by decide +kernel)
    (by decide +kernel)
  exact ⟨_, _, _, rfl, hiff.mpr ⟨hroom, by decide +kernel⟩⟩

end LoraMultihop.Multihop.Retries
