/- digest: How the ring of each node comes to be its hop distance to the gateway. -/

import LoraMultihop.Multihop.Heartbeats
import LoraMultihop.Multihop.Rings

set_option autoImplicit false
set_option relaxedAutoImplicit false

namespace LoraMultihop.Multihop.Cascade

open LoraMultihop.Foundation.ByteMemory (Bytes)
open LoraMultihop.Foundation.Soup
open LoraMultihop.Net.Params
open LoraMultihop.Multihop.Messages
open LoraMultihop.Multihop.State
open LoraMultihop.Multihop.State.MultihopState
open LoraMultihop.Multihop.Histogram
open LoraMultihop.Multihop.Discovery
open LoraMultihop.Multihop.Heartbeats (heartbeat heartbeatRing_heartbeat)
open LoraMultihop.Multihop.Rings

section Taught

variable {V : Type*} [DecidableEq V] (G : SimpleGraph V) (g : V) (start : Network V Party Bytes)

/-- The steps teach a node its distance: it is the gateway, or it hears the heartbeat of a node one
hop closer, from when that node had been taught its own, and updates its ring before it resets its
neighbors again. -/
inductive Taught : List (V × Op) → V → Prop
  | gateway (steps : List (V × Op)) : Taught steps g
  | told {before wait pass rest steps : List (V × Op)} {u v : V} (stamp : UInt32)
      (hu : Taught before u) (hcloser : G.edist v g = G.edist u g + 1)
      (hkept : (v, .resetNeighbors) ∉ pass ++ rest)
      (heq : steps = (before ++ wait) ++
        (v, .hear (heartbeat stamp ((start.run machine before).procs u).node.state)) ::
          (pass ++ (v, .updateRing) :: rest)) : Taught steps v

end Taught

section Steps

variable {V : Type*} {G : SimpleGraph V} {g v : V} {p : Party} {ring : Ring}

private theorem lowest_ge (h : Known G g v p) (hdist : G.edist v g = ((ring.toNat + 1 : ℕ) : ℕ∞)) :
    ring ≤ lowestRing p.node.state.neighbors := by
  obtain ⟨rings, hcounted, -, hrings⟩ := h.counts
  apply UInt8.le_iff_toNat_le.mpr
  rcases hcounted.lowest with ⟨-, hnone⟩ | ⟨hmem, -⟩
  · rw [hnone]
    exact Nat.le_of_lt_succ ring.toNat_lt
  · have hle := (hrings _ hmem).2
    rw [hdist, Nat.cast_le] at hle
    omega

private theorem lowest_hear (h : Known G g v p) (hlt : p.heard < 255) (b : Bytes) :
    lowestRing (Op.exec (.hear b) p).1.node.state.neighbors ≤
        lowestRing p.node.state.neighbors ∧
      ∀ ring, heartbeatRing b = some ring → ring ≠ UNKNOWN_RING →
        lowestRing (Op.exec (.hear b) p).1.node.state.neighbors ≤ ring := by
  rw [Op.exec]
  cases hb : heartbeatRing b with
  | none => exact ⟨UInt8.le_refl _, fun ring hring => absurd hring (by simp)⟩
  | some heard =>
      dsimp only
      by_cases hknown : heard = UNKNOWN_RING
      · rw [MultihopState.addNeighbor, if_pos hknown.symm]
        refine ⟨UInt8.le_refl _, fun ring hring hne => ?_⟩
        exact absurd (Option.some.inj hring ▸ hknown) hne
      · obtain ⟨rings, hcounted, hlen, -⟩ := h.counts
        have hnew := hcounted.addNeighbor heard fun _ => lt_of_le_of_lt hlen hlt
        rw [if_neg hknown] at hnew
        rcases hnew.lowest with ⟨hnil, -⟩ | ⟨-, hleast⟩
        · exact absurd hnil (by simp)
        · refine ⟨?_, fun ring hring _ => ?_⟩
          · rcases hcounted.lowest with ⟨-, hnone⟩ | ⟨hmem, -⟩
            · rw [hnone]
              exact UInt8.le_iff_toNat_le.mpr (Nat.le_of_lt_succ (UInt8.toNat_lt _))
            · exact hleast _ (List.mem_cons_of_mem _ hmem)
          · obtain rfl := Option.some.inj hring
            exact hleast _ List.mem_cons_self

private theorem update_exact (h : Known G g v p)
    (hdist : G.edist v g = ((ring.toNat + 1 : ℕ) : ℕ∞)) (hknown : ring ≠ UNKNOWN_RING)
    (hlow : lowestRing p.node.state.neighbors = ring) :
    (Op.exec .updateRing p).1.node.state.ring = ring + 1 ∧
      (Op.exec .updateRing p).1.node.state.neighbors = p.node.state.neighbors := by
  have hv : v ≠ g := by
    rintro rfl
    rw [SimpleGraph.edist_self] at hdist
    exact absurd hdist.symm (Nat.cast_ne_zero.mpr (Nat.succ_ne_zero _))
  have hlt : ring < p.node.state.ring := by
    apply UInt8.lt_iff_toNat_lt.mpr
    rcases h.ring with hunknown | hle
    · rw [hunknown]
      have hne : ring.toNat ≠ 255 := fun heq => hknown (UInt8.toNat_inj.mp heq)
      have hbound := ring.toNat_lt
      have hval : UNKNOWN_RING.toNat = 255 := rfl
      omega
    · rw [hdist, Nat.cast_le] at hle
      omega
  rw [Op.exec]
  rcases updateRing_cases (fun ha => hv (h.gateway.mp ha)) with
    ⟨-, hstate⟩ | ⟨hge, -, -⟩ | ⟨hge, -, -⟩
  · rw [hstate, hlow]
    exact ⟨rfl, rfl⟩
  · exact absurd hge (UInt8.not_le.mpr (hlow ▸ hlt))
  · exact absurd hge (UInt8.not_le.mpr (hlow ▸ hlt))

/-- What a node at distance `ring + 1` has been told it keeps until it resets its neighbors. -/
private theorem told_step (h : Known G g v p) (hdist : G.edist v g = ((ring.toNat + 1 : ℕ) : ℕ∞))
    (hknown : ring ≠ UNKNOWN_RING) (hlow : lowestRing p.node.state.neighbors = ring) {op : Op}
    (henabled : op.Enabled p) (hreset : op ≠ .resetNeighbors)
    (hnext : Known G g v (op.exec p).1) :
    lowestRing (op.exec p).1.node.state.neighbors = ring ∧
      (p.node.state.ring = ring + 1 → (op.exec p).1.node.state.ring = ring + 1) := by
  cases op with
  | announce stamp now sent =>
      have hstate := announceHeartbeat_state stamp now sent p.node
      have hsame : (Op.exec (.announce stamp now sent) p).1.node.state = p.node.state := hstate
      rw [hsame]
      exact ⟨hlow, id⟩
  | hear b =>
      refine ⟨UInt8.le_antisymm ?_ (lowest_ge hnext hdist), ?_⟩
      · exact hlow ▸ (lowest_hear h henabled b).1
      · rw [Op.exec]
        split
        · next heard _ =>
          have hstate : ∃ list, p.node.state.addNeighbor heard =
              { p.node.state with neighbors := list } := addNeighbors_kept [heard] p.node.state
          obtain ⟨list, hlist⟩ := hstate
          rw [hlist]
          exact id
        · exact id
  | resetNeighbors => exact absurd rfl hreset
  | updateRing =>
      obtain ⟨hring, hneighbors⟩ := update_exact h hdist hknown hlow
      exact ⟨by rw [hneighbors, hlow], fun _ => hring⟩

end Steps

section Runs

variable {V : Type*} [DecidableEq V] {G : SimpleGraph V} {g v : V} {ring : Ring}
  {c : Network V Party Bytes}

private theorem holds_act (h : (claims G g).Holds c) {u : V} {op : Op}
    (hmay : c.May machine G.Adj u op) :
    (claims G g).Holds (c.act machine u op) := claims_kept.next h (Step.act u op hmay)

private theorem act_self (u : V) (op : Op) :
    (c.act machine u op).procs u = (op.exec (c.procs u)).1 := Function.update_self ..

private theorem act_other {u : V} (hne : v ≠ u) (op : Op) :
    (c.act machine u op).procs v = c.procs v := Function.update_of_ne hne ..

/-- Over any run without a reset a node keeps what it has been told. -/
private theorem told_run {steps : List (V × Op)} (h : (claims G g).Holds c)
    (hallowed : Allowed machine G.Adj steps c) (hkept : (v, .resetNeighbors) ∉ steps)
    (hdist : G.edist v g = ((ring.toNat + 1 : ℕ) : ℕ∞)) (hknown : ring ≠ UNKNOWN_RING)
    (hlow : lowestRing (c.procs v).node.state.neighbors = ring) :
    lowestRing ((c.run machine steps).procs v).node.state.neighbors = ring ∧
      ((c.procs v).node.state.ring = ring + 1 →
        ((c.run machine steps).procs v).node.state.ring = ring + 1) := by
  induction steps generalizing c with
  | nil => exact ⟨hlow, id⟩
  | cons s steps ih =>
      obtain ⟨u, op⟩ := s
      obtain ⟨hmay, hrest⟩ := hallowed
      have hnext := holds_act h hmay
      have hkept' : (v, Op.resetNeighbors) ∉ steps := fun hmem =>
        hkept (List.mem_cons_of_mem _ hmem)
      by_cases hu : v = u
      · subst hu
        have hreset : op ≠ .resetNeighbors := by
          rintro rfl
          exact hkept List.mem_cons_self
        have hself := hnext.1 v
        rw [act_self] at hself
        obtain ⟨hlow', hring⟩ :=
          told_step (h.1 v) hdist hknown hlow hmay.1 hreset hself
        rw [← act_self (c := c)] at hlow' hring
        obtain ⟨hend, hexact⟩ := ih hnext hrest hkept' hlow'
        exact ⟨hend, fun hr => hexact (hring hr)⟩
      · have hsame := act_other (c := c) hu op
        rw [← hsame] at hlow ⊢
        exact ih hnext hrest hkept' hlow

private theorem run_cons (s : V × Op) (steps : List (V × Op)) :
    c.run machine (s :: steps) = (c.act machine s.1 s.2).run machine steps := rfl

end Runs

/-- However the nodes interleave and whatever else they hear, late or repeated: a node that the run
has taught its distance, along a path from the gateway, has that distance as its ring. -/
theorem taught_ring_exact {V : Type*} [DecidableEq V] {G : SimpleGraph V} {g : V}
    {start : Network V Party Bytes} (hstart : Start g start) {steps : List (V × Op)}
    (hallowed : Allowed machine G.Adj steps start) {v : V} (htaught : Taught G g start steps v)
    (hnear : G.edist v g ≤ 255) :
    ((((start.run machine steps).procs v).node.state.ring.toNat : ℕ) : ℕ∞) = G.edist v g := by
  have hholds {steps : List (V × Op)} (hallowed : Allowed machine G.Adj steps start) :
      (claims G g).Holds (start.run machine steps) :=
    claims_kept.reachable hstart.holds (reachable_run hallowed)
  induction htaught with
  | gateway steps =>
      rw [((hholds hallowed).1 g).source rfl, SimpleGraph.edist_self]
      rfl
  | @told before wait pass rest steps u v stamp hu hcloser hkept heq ih =>
      subst heq
      obtain ⟨hfirst, hthen⟩ := allowed_append hallowed
      obtain ⟨hbefore, -⟩ := allowed_append hfirst
      obtain ⟨hmay, hpassed⟩ := hthen
      obtain ⟨hpass, hupdate, hrest⟩ := allowed_append hpassed
      have hring := heartbeatRing_heartbeat stamp ((start.run machine before).procs u).node.state
      generalize hb : heartbeat stamp ((start.run machine before).procs u).node.state = b at *
      generalize ((start.run machine before).procs u).node.state.ring = ring at *
      -- The ring that `u` announced is its distance, so `v` cannot hear a lower one.
      have hbound : G.edist u g + 1 ≤ 255 := hcloser ▸ hnear
      have hexact := ih hbefore (le_self_add.trans hbound)
      rw [← hexact] at hcloser hbound
      have hdist : G.edist v g = ((ring.toNat + 1 : ℕ) : ℕ∞) := by
        rw [hcloser, Nat.cast_add, Nat.cast_one]
      have hknown : ring ≠ UNKNOWN_RING := by
        rintro rfl
        exact absurd hbound (by decide)
      have hheard := holds_act (hholds hfirst) hmay
      have hlow : lowestRing (((start.run machine (before ++ wait)).act machine v
          (.hear b)).procs v).node.state.neighbors = ring := by
        have hknows := hheard.1 v
        rw [act_self] at hknows ⊢
        exact UInt8.le_antisymm
          ((lowest_hear ((hholds hfirst).1 v) hmay.1 b).2 ring hring hknown)
          (lowest_ge hknows hdist)
      obtain ⟨hlow', -⟩ := told_run hheard hpass
        (fun hmem => hkept (List.mem_append_left _ hmem)) hdist hknown hlow
      have hpassed := claims_kept.reachable hheard (reachable_run hpass)
      obtain ⟨hupdated, hneighbors⟩ := update_exact (hpassed.1 v) hdist hknown hlow'
      rw [← act_self] at hupdated hneighbors
      obtain ⟨-, hend⟩ := told_run (holds_act hpassed hupdate) hrest
        (fun hmem => hkept (List.mem_append_right _ hmem)) hdist hknown
        (hneighbors ▸ hlow')
      rw [run_append, run_cons, run_append, run_cons, hend hupdated, hdist, ring_add_one hknown]

/-- One heartbeat of the gateway teaches its neighbor. -/
theorem pair_ring_exact :
    ((((pairStart.run machine pairSteps).procs false).node.state.ring.toNat : ℕ) : ℕ∞) =
      (⊤ : SimpleGraph Bool).edist false true := by
  have hone : (⊤ : SimpleGraph Bool).edist false true = 1 :=
    SimpleGraph.edist_eq_one_iff_adj.mpr (by simp)
  have hcloser : (⊤ : SimpleGraph Bool).edist false true =
      (⊤ : SimpleGraph Bool).edist true true + 1 := by
    rw [hone, SimpleGraph.edist_self, zero_add]
  have hallowed : Allowed machine (⊤ : SimpleGraph Bool).Adj pairSteps pairStart := by
    decide +kernel
  have hstart : Start true pairStart :=
    ⟨by decide, rfl, by decide, by decide, fun _ => rfl, fun _ => rfl, rfl⟩
  have htaught : Taught ⊤ true pairStart pairSteps false :=
    @Taught.told Bool _ ⊤ true pairStart [(true, .announce 72 72 true)] [] [] [] pairSteps true
      false 72 (.gateway _) hcloser (by simp) rfl
  exact taught_ring_exact hstart hallowed htaught (by rw [hone]; decide)

end LoraMultihop.Multihop.Cascade
