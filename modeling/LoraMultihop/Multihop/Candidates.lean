/- digest: When the candidates are the two announcers of the highest scores. -/

import LoraMultihop.Foundation.TopTwo
import LoraMultihop.Multihop.Announcement

set_option autoImplicit false
set_option relaxedAutoImplicit false

namespace LoraMultihop.Multihop.Candidates

open LoraMultihop.Foundation.ByteMemory (Bytes)
open LoraMultihop.Foundation.TopTwo
open LoraMultihop.Net.Params
open LoraMultihop.Multihop.Messages
open LoraMultihop.Multihop.State
open LoraMultihop.Multihop.Sending
open LoraMultihop.Multihop.Discovery
open LoraMultihop.Multihop.Advertise
open LoraMultihop.Multihop.Announcement

/-- An announcement is an address, a ring and a score: a candidate. -/
def hear (c : ClusterheadCandidates) (a : Candidate) : ClusterheadCandidates :=
  c.update a.address a.ring a.score

def heard (anns : List Candidate) : ClusterheadCandidates := anns.foldl hear .reset

def score (a : Candidate) : Nat := a.score.toNat

/-- An address's score: the highest it announced. -/
def scoreOf (anns : List Candidate) (address : Address) : Nat :=
  ((anns.filter fun a => decide (a.address = address)).map score).foldr max 0

/-- The candidate's address announced its ring, and has the highest score of the announcers that
satisfy `who`. -/
def Leads (anns : List Candidate) (who : Address → Prop) (c : Candidate) : Prop :=
  (∃ a ∈ anns, a.address = c.address ∧ a.ring = c.ring) ∧
    ∀ a ∈ anns, who a.address → scoreOf anns a.address ≤ scoreOf anns c.address

/-- The candidates are the two announcers of the highest scores; a node whose first target refuses
it turns to another one. -/
structure KeepsTopTwo (anns : List Candidate) (c : ClusterheadCandidates) : Prop where
  top : anns ≠ [] → Leads anns (fun _ => True) c.top
  second : c.second.address ≠ UNKNOWN_ADDR →
    c.second.address ≠ c.top.address ∧ Leads anns (fun a => a ≠ c.top.address) c.second
  alone : c.second.address = UNKNOWN_ADDR → ∀ a ∈ anns, a.address = c.top.address
  fallback : ∀ s : MultihopState, (closer s c.second).1 ≠ UNKNOWN_ADDR →
    (closer s c.second).1 ≠ c.top.address

/-- The best announcement and the best of the remaining ones, each the earliest of its score, come
from two addresses, and the second one is known. Or no address is known at all. -/
def TwoAnnouncers (anns : List Candidate) : Prop :=
  (∀ a ∈ anns, a.address = UNKNOWN_ADDR) ∨
    ∀ t s, anns.argmax score = some t → (anns.erase t).argmax score = some s →
      s.address ≠ t.address ∧ s.address ≠ UNKNOWN_ADDR

section Loop

/-- The announcement that a message of the announcement loop is to a node of state `s`. -/
def announcementOf (s : MultihopState) (b : Bytes) : Option Candidate :=
  match decodeMsg b with
  | some (⟨_, src, .openCluster ring _ neighbors⟩, _) =>
      if src = s.address then none else some ⟨src, ring, neighbors.score ring⟩
  | _ => none

def announcementsOf (p : Pass) : List Candidate :=
  p.processed.filterMap (announcementOf p.node.state)

private theorem hearPeer_candidates (s : MultihopState) (l : AnnounceLocals) (b : Bytes) :
    (hearPeer s l b).candidates =
      (announcementOf s b).toList.foldl hear l.candidates := by
  rw [hearPeer, announcementOf]
  cases decodeMsg b with
  | none => rfl
  | some decoded =>
      obtain ⟨⟨sequence, src, body⟩, rest⟩ := decoded
      cases body with
      | openCluster ring node neighbors =>
          dsimp only
          by_cases hown : src = s.address
          · rw [if_pos hown, if_pos hown]
            rfl
          · rw [if_neg hown, if_neg hown]
            split_ifs <;> rfl
      | _ => rfl

private theorem hearPeers_candidates (s : MultihopState) (l : AnnounceLocals) (msgs : List Bytes) :
    (msgs.foldl (hearPeer s) l).candidates =
      (msgs.filterMap (announcementOf s)).foldl hear l.candidates := by
  induction msgs generalizing l with
  | nil => rfl
  | cons b msgs ih =>
      rw [List.foldl_cons, ih, hearPeer_candidates]
      cases h : announcementOf s b with
      | none => rw [List.filterMap_cons_none h]; rfl
      | some a => rw [List.filterMap_cons_some h]; rfl

private theorem passes_candidates {inps : List Input} {l : AnnounceLocals} {n : Node}
    {before : List Pass}
    {p : Pass} {after : List Pass} (h : passes inps l n = before ++ p :: after) :
    p.locals.candidates = (before.flatMap announcementsOf).foldl hear l.candidates := by
  induction before generalizing inps l n with
  | nil =>
      obtain ⟨hl, -, -⟩ := passes_cons h
      rw [hl]
      rfl
  | cons q before ih =>
      obtain ⟨inp, l', n'⟩ := q
      obtain ⟨hl, hn, inps', htail⟩ := passes_cons h
      dsimp only at hl hn
      subst hl hn
      have hpass : (announcementPass inp l' n').1.candidates =
          (announcementsOf ⟨inp, l', n'⟩).foldl hear l'.candidates := by
        rw [announcementPass]
        dsimp only
        rw [hearPeers_candidates, announceCluster_candidates, announceCluster_rx,
          announceCluster_state, recv_state]
        rfl
      rw [ih htail.symm, hpass, List.flatMap_cons, List.foldl_append]

theorem call_candidates {c : Call} {durationMs : UInt32} {eligibleRing : Ring}
    {before : List Pass} {p : Pass} {after : List Pass}
    (h : c.passes durationMs eligibleRing = before ++ p :: after) :
    p.locals.candidates = heard (before.flatMap announcementsOf) :=
  passes_candidates h

end Loop

section Update

variable {anns : List Candidate}

/-- The two entries, where a missing one is that of `reset`. -/
def entries (best : Option Candidate × Option Candidate) : ClusterheadCandidates :=
  ⟨best.1.getD .unknown, best.2.getD .unknown⟩

private theorem hear_entries (best : Option Candidate × Option Candidate) {a : Candidate}
    (hpos : 0 < a.score) : hear (entries best) a = entries (offer score best a) := by
  have hempty : Candidate.unknown.score < a.score := hpos
  obtain ⟨first, second⟩ := best
  rw [hear, ClusterheadCandidates.update, entries]
  cases first with
  | none => exact if_pos hempty
  | some t =>
      cases second with
      | none =>
          simp only [offer, score, Option.getD_some, Option.getD_none, ← UInt32.lt_iff_toNat_lt,
            if_pos hempty]
          split_ifs <;> rfl
      | some s =>
          simp only [offer, score, Option.getD_some, ← UInt32.lt_iff_toNat_lt]
          split_ifs <;> rfl

private theorem foldl_hear (hpos : ∀ a ∈ anns, 0 < a.score)
    (best : Option Candidate × Option Candidate) :
    anns.foldl hear (entries best) = entries (anns.foldl (offer score) best) := by
  induction anns generalizing best with
  | nil => rfl
  | cons a anns ih =>
      rw [List.foldl_cons, List.foldl_cons, hear_entries best (hpos a List.mem_cons_self)]
      exact ih (fun b hb => hpos b (List.mem_cons_of_mem a hb)) _

private theorem heard_eq (hpos : ∀ a ∈ anns, 0 < a.score) :
    heard anns = entries (anns.argmax score, (others score anns).argmax score) := by
  rw [← foldl_offer]
  exact foldl_hear hpos (none, none)

end Update

section Scores

variable {anns : List Candidate} {address : Address}

private theorem score_le_scoreOf {a : Candidate} (ha : a ∈ anns) :
    score a ≤ scoreOf anns a.address := by
  have hmem : a ∈ anns.filter fun b => decide (b.address = a.address) :=
    List.mem_filter.mpr ⟨ha, decide_eq_true rfl⟩
  exact List.le_max_of_le (List.mem_map_of_mem hmem) le_rfl

private theorem scoreOf_le {k : Nat} (h : ∀ a ∈ anns, a.address = address → score a ≤ k) :
    scoreOf anns address ≤ k := by
  apply List.max_le_of_forall_le
  intro v hv
  obtain ⟨a, ha, rfl⟩ := List.mem_map.mp hv
  obtain ⟨hmem, heq⟩ := List.mem_filter.mp ha
  exact h a hmem (of_decide_eq_true heq)

private theorem leads_of_le {who : Address → Prop} {c : Candidate} (hc : c ∈ anns)
    (hle : ∀ a ∈ anns, who a.address → score a ≤ score c) : Leads anns who c := by
  refine ⟨⟨c, hc, rfl, rfl⟩, ?_⟩
  intro a ha hwho
  calc scoreOf anns a.address ≤ score c :=
        scoreOf_le fun b hb heq => hle b hb (heq ▸ hwho)
    _ ≤ scoreOf anns c.address := score_le_scoreOf hc

end Scores

section TopTwo

variable {anns : List Candidate}

private theorem fallback_of_second {c : ClusterheadCandidates}
    (h : c.second.address ≠ UNKNOWN_ADDR → c.second.address ≠ c.top.address) (s : MultihopState)
    (hknown : (closer s c.second).1 ≠ UNKNOWN_ADDR) :
    (closer s c.second).1 ≠ c.top.address := by
  rw [closer] at hknown ⊢
  split_ifs at hknown ⊢ with hfar
  · exact absurd rfl hknown
  · exact h hknown

private theorem keeps_single (t : Candidate) : KeepsTopTwo [t] (entries (some t, none)) := by
  refine ⟨fun _ => ?_, fun h => absurd rfl h, ?_, fallback_of_second fun h => absurd rfl h⟩
  · apply leads_of_le (List.mem_singleton_self t)
    intro a ha _
    rw [List.mem_singleton.mp ha]
  · intro _ a ha
    rw [List.mem_singleton.mp ha]
    rfl

private theorem keeps_pair_iff {t s : Candidate} (htop : anns.argmax score = some t)
    (hsecond : (anns.erase t).argmax score = some s) :
    KeepsTopTwo anns (entries (some t, some s)) ↔
      (∀ a ∈ anns, a.address = UNKNOWN_ADDR) ∨
        s.address ≠ t.address ∧ s.address ≠ UNKNOWN_ADDR := by
  have ht : t ∈ anns := List.argmax_mem htop
  have hs : s ∈ anns := List.mem_of_mem_erase (List.argmax_mem hsecond)
  have hbest : Leads anns (fun _ => True) t :=
    leads_of_le ht fun a ha _ => List.le_of_mem_argmax ha htop
  constructor
  · intro h
    by_cases hunknown : s.address = UNKNOWN_ADDR
    · left
      intro a ha
      have halone : ∀ a ∈ anns, a.address = t.address := h.alone hunknown
      rw [halone a ha, ← halone s hs, hunknown]
    · exact Or.inr ⟨(h.second hunknown).1, hunknown⟩
  · rintro (hall | ⟨hne, hknown⟩)
    · have hunknown : s.address = UNKNOWN_ADDR := hall s hs
      refine ⟨fun _ => hbest, fun h => absurd hunknown h, ?_,
        fallback_of_second fun h => absurd hunknown h⟩
      intro _ a ha
      exact (hall a ha).trans (hall t ht).symm
    · refine ⟨fun _ => hbest, fun _ => ⟨hne, ?_⟩, fun h => absurd h hknown,
        fallback_of_second fun _ => hne⟩
      apply leads_of_le hs
      intro a ha hother
      have hrest : a ∈ anns.erase t :=
        (List.mem_erase_of_ne fun h => hother (congrArg Candidate.address h)).mpr ha
      exact List.le_of_mem_argmax hrest hsecond

/-- The candidates are the two announcers of the highest scores exactly where the two best
announcements come from two of them. -/
theorem keeps_top_two_iff (anns : List Candidate) (hpos : ∀ a ∈ anns, 0 < a.score) :
    KeepsTopTwo anns (heard anns) ↔ TwoAnnouncers anns := by
  rw [heard_eq hpos, TwoAnnouncers]
  cases htop : anns.argmax score with
  | none =>
      obtain rfl := List.argmax_eq_none.mp htop
      refine ⟨fun _ => Or.inl (fun a ha => absurd ha List.not_mem_nil), fun _ => ?_⟩
      exact ⟨fun h => absurd rfl h, fun h => absurd rfl h, fun _ a ha => absurd ha List.not_mem_nil,
        fallback_of_second fun h => absurd rfl h⟩
  | some t =>
      rw [others_of_argmax htop]
      cases hsecond : (anns.erase t).argmax score with
      | none =>
          have hone : anns = [t] := by
            have hperm := List.perm_cons_erase (List.argmax_mem htop)
            rw [List.argmax_eq_none.mp hsecond] at hperm
            exact List.perm_singleton.mp hperm
          refine ⟨fun _ => Or.inr ?_, fun _ => hone ▸ keeps_single t⟩
          intro t' s htop' hs
          obtain rfl := Option.some.inj htop'
          rw [hsecond] at hs
          exact absurd hs (by simp)
      | some s =>
          rw [keeps_pair_iff htop hsecond]
          apply or_congr_right
          constructor
          · rintro hpair t' s' htop' hs
            obtain rfl := Option.some.inj htop'
            obtain rfl := Option.some.inj (hsecond.symm.trans hs)
            exact hpair
          · intro hpair
            exact hpair t s rfl hsecond

/-- Two announcements of node 3, and one of node 4 between them. -/
def repeatedAnnouncements : List Candidate := [⟨3, 1, 5⟩, ⟨4, 1, 4⟩, ⟨3, 1, 6⟩]

/-- A repeated announcement makes a node its own second candidate: without another announcer, and
also in place of one whose score is lower. -/
theorem repeated_announcer_is_second :
    ¬ KeepsTopTwo [⟨3, 1, 5⟩, ⟨3, 1, 5⟩] (heard [⟨3, 1, 5⟩, ⟨3, 1, 5⟩]) ∧
      ¬ KeepsTopTwo repeatedAnnouncements (heard repeatedAnnouncements) := by
  constructor
  · intro h
    exact absurd (h.second (by decide)).1 (by decide)
  · intro h
    exact absurd (h.second (by decide)).1 (by decide)

theorem two_announcers_kept :
    let anns : List Candidate := [⟨3, 1, 5⟩, ⟨4, 1, 6⟩, ⟨3, 1, 4⟩]
    heard anns = ⟨⟨4, 1, 6⟩, ⟨3, 1, 5⟩⟩ ∧ KeepsTopTwo anns (heard anns) := by
  refine ⟨rfl, (keeps_top_two_iff _ (by decide)).mpr (Or.inr ?_)⟩
  intro t s ht hs
  have ht' : t = ⟨4, 1, 6⟩ := Option.some.inj ht.symm
  subst ht'
  have hs' : s = ⟨3, 1, 5⟩ := Option.some.inj hs.symm
  subst hs'
  decide

end TopTwo

end LoraMultihop.Multihop.Candidates
