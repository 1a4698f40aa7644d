/- digest: When the ring of a node may rise over a run of discovery phases. -/

import LoraMultihop.Multihop.Advertise

set_option autoImplicit false
set_option relaxedAutoImplicit false

namespace LoraMultihop.Multihop.Hysteresis

open LoraMultihop.Net.Params
open LoraMultihop.Net.TimeHelpers
open LoraMultihop.Link
open LoraMultihop.Multihop.Messages
open LoraMultihop.Multihop.State
open LoraMultihop.Multihop.State.MultihopState
open LoraMultihop.Multihop.Sending
open LoraMultihop.Multihop.Histogram
open LoraMultihop.Multihop.Discovery
open LoraMultihop.Multihop.Advertise

/-- One call of `run_neighbor_discovery`: what it reads at its start and in each pass. -/
structure Phase where
  durationMs : UInt32
  start : Input
  passes : List Input
  live : ∀ inp ∈ passes,
    (MsDeadline.create durationMs (start.millis 0)).reached (inp.millis 0) = false

def runPasses (passes : List Input) (l : DiscoveryLocals) (n : Node) : DiscoveryLocals × Node :=
  passes.foldl
    (fun r inp => ((discoveryPass inp r.1 r.2).1, (discoveryPass inp r.1 r.2).2.1)) (l, n)

def heardByPass : List Input → DiscoveryLocals → Node → List (List Ring)
  | [], _, _ => []
  | inp :: passes, l, n =>
      heardRings inp n ::
        heardByPass passes (discoveryPass inp l n).1 (discoveryPass inp l n).2.1

structure Turn where
  node : Node
  phase : Phase

namespace Turn

def ring (t : Turn) : Ring := t.node.state.ring

/-- `rounds_without_lower` as the phase finds it. -/
def rounds (t : Turn) : Nat := t.node.state.roundsWithoutLower.toNat

def after (t : Turn) (k : Nat) : Node :=
  let r := startDiscovery t.phase.start t.phase.durationMs t.node
  (runPasses (t.phase.passes.take k) r.1 r.2).2

def finish (t : Turn) : Node := t.after t.phase.passes.length

def groups (t : Turn) : List (List Ring) :=
  let r := startDiscovery t.phase.start t.phase.durationMs t.node
  heardByPass t.phase.passes r.1 r.2

def heard (t : Turn) (k : Nat) : List Ring := (t.groups.take k).flatten

/-- No ring below the node's is heard in the whole phase. -/
def Quiet (t : Turn) : Prop := ∀ r ∈ t.groups.flatten, t.ring ≤ r

/-- A pass counts as a round of its own only where that does no harm: the ring is unknown, there is
one pass, the phase is the third quiet one, or a lower ring is heard before the counter runs out. -/
structure Steady (t : Turn) : Prop where
  few : (t.groups.flatten.filter (· ≠ UNKNOWN_RING)).length < 256
  counts : t.ring = UNKNOWN_RING ∨ t.phase.passes.length ≤ 1 ∨ t.rounds = 2 ∧ t.Quiet ∨
    ∃ k, t.rounds + k ≤ 3 ∧ ∃ r ∈ t.heard k, r < t.ring

end Turn

/-- Successive phases of one node, the latest first; between two of them the node does anything but
change its address, its ring and its counter. -/
def Run : List Turn → Prop
  | [] => True
  | [t] => t.node.state.address ≠ GATEWAY_ADDR ∧ t.node.state.roundsWithoutLower = 0
  | t' :: t :: earlier =>
      t'.node.state.address = t.finish.state.address ∧ t'.ring = t.finish.state.ring ∧
        t'.node.state.roundsWithoutLower = t.finish.state.roundsWithoutLower ∧
          Run (t :: earlier)

/-- Wherever the ring rises during a phase, that phase and the two before it were quiet. -/
def RisesAfterThree : List Turn → Prop
  | [] => True
  | t :: earlier =>
      (∀ k, t.ring < (t.after k).state.ring →
        2 ≤ earlier.length ∧ ∀ u ∈ t :: earlier.take 2, u.ring = t.ring ∧ u.Quiet) ∧
        RisesAfterThree earlier

def hearAndUpdate (s : MultihopState) (rings : List Ring) : MultihopState :=
  (addNeighbors rings s).updateRingFromNeighbors

private theorem runPasses_state (passes : List Input) (l : DiscoveryLocals) (n : Node) :
    (runPasses passes l n).2.state = (heardByPass passes l n).foldl hearAndUpdate n.state := by
  induction passes generalizing l n with
  | nil => rfl
  | cons inp passes ih =>
      rw [heardByPass, List.foldl_cons, hearAndUpdate, ← heardState, ← discoveryPass_state inp l n]
      exact ih _ _

private theorem heardByPass_take (passes : List Input) (l : DiscoveryLocals) (n : Node) (k : Nat) :
    heardByPass (passes.take k) l n = (heardByPass passes l n).take k := by
  induction passes generalizing l n k with
  | nil => simp [heardByPass]
  | cons inp passes ih =>
      cases k with
      | zero => rfl
      | succ k => simp only [List.take_succ_cons, heardByPass, ih]

private theorem heardByPass_length (passes : List Input) (l : DiscoveryLocals) (n : Node) :
    (heardByPass passes l n).length = passes.length := by
  induction passes generalizing l n with
  | nil => rfl
  | cons inp passes ih => simp only [heardByPass, List.length_cons, ih]

private theorem after_state (t : Turn) (k : Nat) :
    (t.after k).state = (t.groups.take k).foldl hearAndUpdate t.node.state.resetNeighbors := by
  rw [Turn.after, runPasses_state, heardByPass_take]
  rfl

/-- The passes of a phase are the steps of the advertising slot from its start on. -/
theorem run_phase (t : Turn) :
    ∃ l, run t.phase.passes ⟨.discovery (startDiscovery t.phase.start t.phase.durationMs t.node).1,
        (startDiscovery t.phase.start t.phase.durationMs t.node).2⟩ =
      ⟨.discovery l, t.finish⟩ := by
  have hpasses (passes : List Input) (l : DiscoveryLocals) (n : Node)
      (hlive : ∀ inp ∈ passes, l.phaseDeadline.reached (inp.millis 0) = false) :
      run passes ⟨.discovery l, n⟩ =
        ⟨.discovery (runPasses passes l n).1, (runPasses passes l n).2⟩ := by
    induction passes generalizing l n with
    | nil => rfl
    | cons inp passes ih =>
        have hstep : (step inp ⟨.discovery l, n⟩).1 =
            ⟨.discovery (discoveryPass inp l n).1, (discoveryPass inp l n).2.1⟩ := by
          rw [step]
          dsimp only
          rw [if_neg (by simp [hlive inp List.mem_cons_self])]
        rw [run, List.foldl_cons, hstep]
        exact ih _ _ fun inp' hinp => by
          rw [discoveryPass_deadline]
          exact hlive inp' (List.mem_cons_of_mem _ hinp)
  rw [hpasses _ _ _ t.phase.live, Turn.finish, Turn.after, List.take_length]
  exact ⟨_, rfl⟩

/-- A node amid a phase in which it has heard the rings `heard`. -/
structure Listening (s : MultihopState) (heard : List Ring) : Prop where
  address : s.address ≠ GATEWAY_ADDR
  rounds : s.roundsWithoutLower.toNat ≤ 2
  counted : Counted s.neighbors heard
  known : ∀ r ∈ heard, r ≠ UNKNOWN_RING

/-- The ring is one above a ring heard. -/
def Based (s : MultihopState) (heard : List Ring) : Prop :=
  s.roundsWithoutLower = 0 ∧ ∃ r ∈ heard, s.ring.toNat = r.toNat + 1

/-- No later pass of the phase can raise the ring above the rings heard. -/
def Settled (s : MultihopState) (heard : List Ring) : Prop :=
  s.ring = UNKNOWN_RING ∨ Based s heard

section Pass

variable {s : MultihopState} {heard : List Ring}

private theorem Listening.hear (h : Listening s heard) (ring : Ring)
    (hlen : ring ≠ UNKNOWN_RING → heard.length < 255) :
    Listening (s.addNeighbor ring) (if ring = UNKNOWN_RING then heard else ring :: heard) := by
  obtain ⟨list, hlist⟩ := addNeighbors_kept [ring] s
  have hlist : s.addNeighbor ring = { s with neighbors := list } := hlist
  have hcounted := h.counted.addNeighbor ring hlen
  rw [hlist] at hcounted ⊢
  refine ⟨h.address, h.rounds, hcounted, ?_⟩
  intro r hr
  split_ifs at hr with hring
  · exact h.known r hr
  · rcases List.mem_cons.mp hr with rfl | hr
    · exact hring
    · exact h.known r hr

private theorem Listening.hearAll (h : Listening s heard) (rings : List Ring)
    (hlen : heard.length + (rings.filter (· ≠ UNKNOWN_RING)).length < 256) :
    Listening (addNeighbors rings s) ((rings.filter (· ≠ UNKNOWN_RING)).reverse ++ heard) := by
  induction rings generalizing s heard with
  | nil => exact h
  | cons ring rings ih =>
      by_cases hring : ring = UNKNOWN_RING
      · rw [List.filter_cons_of_neg (by simp [hring])] at hlen ⊢
        have hnext := h.hear ring fun hne => absurd hring hne
        rw [if_pos hring] at hnext
        exact ih hnext hlen
      · rw [List.filter_cons_of_pos (by simp [hring])] at hlen ⊢
        rw [List.length_cons] at hlen
        have hnext := h.hear ring fun _ => by omega
        rw [if_neg hring] at hnext
        rw [List.reverse_cons, List.append_assoc]
        exact ih hnext (by rw [List.length_append, List.length_singleton]; omega)

private theorem Listening.based (h : Listening s heard)
    (hlow : lowestRing s.neighbors ≠ UNKNOWN_RING) : lowestRing s.neighbors ∈ heard ∧
      (lowestRing s.neighbors + 1).toNat = (lowestRing s.neighbors).toNat + 1 := by
  rcases h.counted.lowest with ⟨-, hnone⟩ | ⟨hmem, -⟩
  · exact absurd hnone hlow
  · exact ⟨hmem, ring_add_one hlow⟩

private theorem Listening.update (h : Listening s heard) :
    Listening s.updateRingFromNeighbors heard ∧
      ((∃ r ∈ heard, r < s.ring) ∧ Based s.updateRingFromNeighbors heard ∧
          s.updateRingFromNeighbors.ring ≤ s.ring ∨
        (∀ r ∈ heard, s.ring ≤ r) ∧ s.roundsWithoutLower.toNat < 2 ∧
          s.updateRingFromNeighbors.ring = s.ring ∧
          s.updateRingFromNeighbors.roundsWithoutLower.toNat = s.roundsWithoutLower.toNat + 1 ∨
        (∀ r ∈ heard, s.ring ≤ r) ∧ s.roundsWithoutLower.toNat = 2 ∧
          Settled s.updateRingFromNeighbors heard) := by
  have hone : (s.roundsWithoutLower + 1).toNat = s.roundsWithoutLower.toNat + 1 :=
    (add_one_ne_zero (by have := h.rounds; omega)).1
  have hthree : RING_HYSTERESIS_THRESHOLD.toNat = 3 := rfl
  have hquiet (hge : s.ring ≤ lowestRing s.neighbors) : ∀ r ∈ heard, s.ring ≤ r := by
    intro r hr
    rcases h.counted.lowest with ⟨hnil, -⟩ | ⟨-, hleast⟩
    · rw [hnil] at hr
      exact absurd hr List.not_mem_nil
    · exact UInt8.le_trans hge (hleast r hr)
  rcases updateRing_cases h.address with ⟨hlow, hs⟩ | ⟨hge, hlt, hs⟩ | ⟨hge, hle, hs⟩
  · have hne : lowestRing s.neighbors ≠ UNKNOWN_RING := ne_unknown_of_lt hlow
    obtain ⟨hmem, hsucc⟩ := h.based hne
    have hlt := UInt8.lt_iff_toNat_lt.mp hlow
    rw [hs]
    refine ⟨⟨h.address, by simp, h.counted, h.known⟩, Or.inl ⟨⟨_, hmem, hlow⟩,
      ⟨rfl, _, hmem, hsucc⟩, ?_⟩⟩
    rw [UInt8.le_iff_toNat_le]
    dsimp only
    omega
  · have hlt := UInt8.lt_iff_toNat_lt.mp hlt
    rw [hs]
    refine ⟨⟨h.address, ?_, h.counted, h.known⟩, Or.inr (Or.inl ⟨hquiet hge, by omega, rfl, hone⟩)⟩
    dsimp only
    omega
  · have hle := UInt8.le_iff_toNat_le.mp hle
    have hrounds := h.rounds
    rw [hs]
    refine ⟨⟨h.address, by simp, h.counted, h.known⟩,
      Or.inr (Or.inr ⟨hquiet hge, by omega, ?_⟩)⟩
    by_cases hnone : lowestRing s.neighbors = UNKNOWN_RING
    · exact Or.inl (if_pos hnone)
    · obtain ⟨hmem, hsucc⟩ := h.based hnone
      refine Or.inr ⟨rfl, _, hmem, ?_⟩
      dsimp only
      rw [if_neg hnone, hsucc]

private theorem addNeighbors_fields (rings : List Ring) (s : MultihopState) :
    (addNeighbors rings s).ring = s.ring ∧
      (addNeighbors rings s).roundsWithoutLower = s.roundsWithoutLower := by
  obtain ⟨list, hlist⟩ := addNeighbors_kept rings s
  rw [hlist]
  exact ⟨rfl, rfl⟩

def fresh (rings : List Ring) : List Ring := (rings.filter (· ≠ UNKNOWN_RING)).reverse

private theorem mem_fresh {rings : List Ring} {r : Ring} :
    r ∈ fresh rings ↔ r ∈ rings ∧ r ≠ UNKNOWN_RING := by
  simp [fresh]

private theorem fresh_append (rings more : List Ring) :
    fresh (rings ++ more) = fresh more ++ fresh rings := by
  simp [fresh]

private theorem Listening.pass (h : Listening s heard) (rings : List Ring)
    (hlen : heard.length + (fresh rings).length < 256) :
    Listening (hearAndUpdate s rings) (fresh rings ++ heard) ∧
      ((∃ r ∈ fresh rings ++ heard, r < s.ring) ∧
          Based (hearAndUpdate s rings) (fresh rings ++ heard) ∧
          (hearAndUpdate s rings).ring ≤ s.ring ∨
        (∀ r ∈ fresh rings ++ heard, s.ring ≤ r) ∧ s.roundsWithoutLower.toNat < 2 ∧
          (hearAndUpdate s rings).ring = s.ring ∧
          (hearAndUpdate s rings).roundsWithoutLower.toNat = s.roundsWithoutLower.toNat + 1 ∨
        (∀ r ∈ fresh rings ++ heard, s.ring ≤ r) ∧ s.roundsWithoutLower.toNat = 2 ∧
          Settled (hearAndUpdate s rings) (fresh rings ++ heard)) := by
  have hlisten := h.hearAll rings (by rwa [fresh, List.length_reverse] at hlen)
  have hupdate := hlisten.update
  obtain ⟨hring, hrounds⟩ := addNeighbors_fields rings s
  rw [hring, hrounds] at hupdate
  exact hupdate

private theorem le_unknown (ring : Ring) : ring ≤ UNKNOWN_RING :=
  UInt8.le_iff_toNat_le.mpr (Nat.lt_succ_iff.mp ring.toNat_lt)

private theorem quiet_of_fresh {rings : List Ring} {ring : Ring} (h : ∀ r ∈ fresh rings, ring ≤ r) :
    ∀ r ∈ rings, ring ≤ r := by
  intro r hr
  by_cases hu : r = UNKNOWN_RING
  · rw [hu]
    exact le_unknown ring
  · exact h r (mem_fresh.mpr ⟨hr, hu⟩)

private theorem lower_fresh {rings : List Ring} {ring r : Ring} (hr : r ∈ rings) (hlt : r < ring) :
    r ∈ fresh rings :=
  mem_fresh.mpr ⟨hr, ne_unknown_of_lt hlt⟩

private theorem Listening.settled_pass (h : Listening s heard) (hs : Settled s heard)
    (rings : List Ring) (hlen : heard.length + (fresh rings).length < 256) :
    Settled (hearAndUpdate s rings) (fresh rings ++ heard) ∧
      (hearAndUpdate s rings).ring ≤ s.ring := by
  obtain ⟨-, hpass⟩ := h.pass rings hlen
  rcases hs with hu | ⟨-, r, hr, hbase⟩
  · rw [hu] at hpass ⊢
    refine ⟨?_, le_unknown _⟩
    rcases hpass with ⟨-, hb, -⟩ | ⟨-, -, hring, -⟩ | ⟨-, -, hsettled⟩
    · exact Or.inr hb
    · exact Or.inl hring
    · exact hsettled
  · have hlt : r < s.ring := UInt8.lt_iff_toNat_lt.mpr (by omega)
    have hmem : r ∈ fresh rings ++ heard := List.mem_append_right _ hr
    rcases hpass with ⟨-, hb, hle⟩ | ⟨hquiet, -⟩ | ⟨hquiet, -⟩
    · exact ⟨Or.inr hb, hle⟩
    · exact absurd hlt (UInt8.not_lt.mpr (hquiet r hmem))
    · exact absurd hlt (UInt8.not_lt.mpr (hquiet r hmem))

private theorem Listening.settled_passes (h : Listening s heard) (hs : Settled s heard)
    (groups : List (List Ring)) (hlen : heard.length + (fresh groups.flatten).length < 256) :
    Settled (groups.foldl hearAndUpdate s) (fresh groups.flatten ++ heard) ∧
      ∀ k, ((groups.take k).foldl hearAndUpdate s).ring ≤ s.ring := by
  induction groups generalizing s heard with
  | nil => exact ⟨hs, fun k => by simp⟩
  | cons rings groups ih =>
      rw [List.flatten_cons, fresh_append, List.length_append] at hlen
      obtain ⟨hs', hle⟩ := h.settled_pass hs rings (by omega)
      obtain ⟨hend, hrest⟩ := ih (h.pass rings (by omega)).1 hs'
        (by rw [List.length_append]; omega)
      constructor
      · rwa [List.flatten_cons, fresh_append, List.append_assoc]
      · intro k
        cases k with
        | zero => exact UInt8.le_refl _
        | succ k => exact UInt8.le_trans (hrest k) hle

private theorem Listening.lower_passes (h : Listening s heard) (hquiet : ∀ r ∈ heard, s.ring ≤ r)
    {groups : List (List Ring)} (hlen : heard.length + (fresh groups.flatten).length < 256)
    {k₀ : Nat} (hk : s.roundsWithoutLower.toNat + k₀ ≤ 3) {r : Ring}
    (hr : r ∈ (groups.take k₀).flatten) (hlt : r < s.ring) :
    Settled (groups.foldl hearAndUpdate s) (fresh groups.flatten ++ heard) ∧
      ∀ k, ((groups.take k).foldl hearAndUpdate s).ring ≤ s.ring := by
  induction groups generalizing s heard k₀ with
  | nil => simp at hr
  | cons rings groups ih =>
      rw [List.flatten_cons, fresh_append, List.length_append] at hlen
      obtain ⟨hnext, hpass⟩ := h.pass rings (by omega)
      have hlen' : (fresh rings ++ heard).length + (fresh groups.flatten).length < 256 := by
        rw [List.length_append]
        omega
      rw [List.flatten_cons, fresh_append, List.append_assoc]
      cases k₀ with
      | zero => simp at hr
      | succ k₀ =>
          rw [List.take_succ_cons, List.flatten_cons, List.mem_append] at hr
          have hlater (hq : ∀ r ∈ fresh rings ++ heard, s.ring ≤ r) :
              r ∈ (groups.take k₀).flatten := by
            apply hr.resolve_left
            intro hin
            exact absurd hlt (UInt8.not_lt.mpr
              (hq r (List.mem_append_left _ (lower_fresh hin hlt))))
          rcases hpass with ⟨-, hb, hle⟩ | ⟨hq, -, hring, hrounds⟩ | ⟨hq, htwo, -⟩
          · obtain ⟨hend, hrest⟩ := hnext.settled_passes (Or.inr hb) groups hlen'
            refine ⟨hend, ?_⟩
            intro k
            cases k with
            | zero => exact UInt8.le_refl _
            | succ k => exact UInt8.le_trans (hrest k) hle
          · have hleft : (hearAndUpdate s rings).roundsWithoutLower.toNat + k₀ ≤ 3 := by omega
            obtain ⟨hend, hrest⟩ := ih hnext (by rwa [hring]) hlen' hleft (hlater hq)
              (by rwa [hring])
            refine ⟨hend, ?_⟩
            intro k
            cases k with
            | zero => exact UInt8.le_refl _
            | succ k => exact hring ▸ hrest k
          · have hmem := hlater hq
            rw [show k₀ = 0 by omega] at hmem
            simp at hmem

private theorem Listening.passes (h : Listening s heard) (groups : List (List Ring))
    (hlen : heard.length + (fresh groups.flatten).length < 256) :
    Listening (groups.foldl hearAndUpdate s) (fresh groups.flatten ++ heard) := by
  induction groups generalizing s heard with
  | nil => exact h
  | cons rings groups ih =>
      rw [List.flatten_cons, fresh_append, List.length_append] at hlen
      rw [List.flatten_cons, fresh_append, List.append_assoc]
      exact ih (h.pass rings (by omega)).1 (by rw [List.length_append]; omega)

end Pass

/-- What a phase leaves for the next one: a settled counter, or one more quiet round. -/
def Leaves (s s' : MultihopState) (rings : List Ring) : Prop :=
  s'.ring = UNKNOWN_RING ∨ s'.roundsWithoutLower = 0 ∨
    s'.ring = s.ring ∧ s'.roundsWithoutLower.toNat ≤ s.roundsWithoutLower.toNat + 1 ∧
      ∀ r ∈ rings, s.ring ≤ r

private theorem Settled.leaves {s s' : MultihopState} {heard rings : List Ring}
    (h : Settled s' heard) : Leaves s s' rings := by
  rcases h with hu | ⟨hz, -⟩
  · exact Or.inl hu
  · exact Or.inr (Or.inl hz)

section Phases

variable {s : MultihopState} {groups : List (List Ring)}

/-- The condition on a phase in terms of the rings its passes hear. -/
def SteadyGroups (s : MultihopState) (groups : List (List Ring)) : Prop :=
  s.ring = UNKNOWN_RING ∨ groups.length ≤ 1 ∨
    s.roundsWithoutLower.toNat = 2 ∧ (∀ r ∈ groups.flatten, s.ring ≤ r) ∨
    ∃ k, s.roundsWithoutLower.toNat + k ≤ 3 ∧ ∃ r ∈ (groups.take k).flatten, r < s.ring

private theorem Listening.steady_pass (h : Listening s []) {rings : List Ring}
    (hlen : (fresh rings).length < 256) :
    Leaves s (hearAndUpdate s rings) rings ∧
      (s.ring < (hearAndUpdate s rings).ring →
        s.roundsWithoutLower.toNat = 2 ∧ ∀ r ∈ rings, s.ring ≤ r) := by
  obtain ⟨-, hpass⟩ := h.pass rings (by simpa using hlen)
  rw [List.append_nil] at hpass
  rcases hpass with ⟨-, hb, hle⟩ | ⟨hquiet, -, hring, hrounds⟩ | ⟨hquiet, htwo, hs⟩
  · exact ⟨Settled.leaves (Or.inr hb), fun hrise => absurd hrise (UInt8.not_lt.mpr hle)⟩
  · refine ⟨Or.inr (Or.inr ⟨hring, hrounds.le, quiet_of_fresh hquiet⟩), ?_⟩
    intro hrise
    rw [hring] at hrise
    exact absurd hrise (UInt8.lt_irrefl _)
  · exact ⟨hs.leaves, fun _ => ⟨htwo, quiet_of_fresh hquiet⟩⟩

private theorem Listening.third_round (h : Listening s [])
    (hlen : (fresh groups.flatten).length < 256)
    (htwo : s.roundsWithoutLower.toNat = 2) (hquiet : ∀ r ∈ groups.flatten, s.ring ≤ r) :
    Leaves s (groups.foldl hearAndUpdate s) groups.flatten := by
  cases groups with
  | nil => exact Or.inr (Or.inr ⟨rfl, Nat.le_succ _, hquiet⟩)
  | cons rings rest =>
      rw [List.flatten_cons, fresh_append, List.length_append] at hlen
      obtain ⟨hnext, hpass⟩ := h.pass rings (by rw [List.length_nil]; omega)
      rcases hpass with ⟨⟨r, hr, hlt⟩, -⟩ | ⟨-, hlt, -⟩ | ⟨-, -, hs⟩
      · rw [List.append_nil] at hr
        refine absurd hlt (UInt8.not_lt.mpr (hquiet r ?_))
        rw [List.flatten_cons]
        exact List.mem_append_left _ (mem_fresh.mp hr).1
      · omega
      · exact (hnext.settled_passes hs rest (by rw [List.append_nil]; omega)).1.leaves

private theorem Listening.steady (h : Listening s []) (hlen : (fresh groups.flatten).length < 256)
    (hsteady : SteadyGroups s groups) :
    Leaves s (groups.foldl hearAndUpdate s) groups.flatten ∧
      ∀ k, s.ring < ((groups.take k).foldl hearAndUpdate s).ring →
        s.ring ≠ UNKNOWN_RING ∧ s.roundsWithoutLower.toNat = 2 ∧
          ∀ r ∈ groups.flatten, s.ring ≤ r := by
  have hlen' : ([] : List Ring).length + (fresh groups.flatten).length < 256 := by
    simpa using hlen
  have hno (hle : ∀ k, ((groups.take k).foldl hearAndUpdate s).ring ≤ s.ring) :
      ∀ k, s.ring < ((groups.take k).foldl hearAndUpdate s).ring →
        s.ring ≠ UNKNOWN_RING ∧ s.roundsWithoutLower.toNat = 2 ∧
          ∀ r ∈ groups.flatten, s.ring ≤ r := fun k hrise =>
    absurd hrise (UInt8.not_lt.mpr (hle k))
  by_cases hunknown : s.ring = UNKNOWN_RING
  · obtain ⟨hend, hle⟩ := h.settled_passes (Or.inl hunknown) groups hlen'
    exact ⟨hend.leaves, hno hle⟩
  rcases hsteady with hu | hone | ⟨htwo, hquiet⟩ | ⟨k, hk, r, hr, hlt⟩
  · exact absurd hu hunknown
  · cases groups with
    | nil =>
        refine ⟨Or.inr (Or.inr ⟨rfl, Nat.le_succ _, by simp⟩), hno ?_⟩
        intro k
        rw [List.take_nil]
        exact UInt8.le_refl _
    | cons rings rest =>
        obtain rfl : rest = [] := List.length_eq_zero_iff.mp (by simpa using hone)
        rw [List.flatten_singleton] at hlen ⊢
        obtain ⟨hleaves, hrise⟩ := h.steady_pass hlen
        refine ⟨hleaves, fun k hk => ⟨hunknown, hrise ?_⟩⟩
        cases k with
        | zero => exact absurd hk (UInt8.lt_irrefl _)
        | succ k =>
            rw [List.take_succ_cons, List.take_nil] at hk
            exact hk
  · exact ⟨h.third_round hlen htwo hquiet, fun k _ => ⟨hunknown, htwo, hquiet⟩⟩
  · obtain ⟨hend, hle⟩ :=
      h.lower_passes (fun r hr => absurd hr List.not_mem_nil) hlen' hk hr hlt
    exact ⟨hend.leaves, hno hle⟩

end Phases

/-- What the counter of `s` says of the phases before it. -/
structure Standing (earlier : List Turn) (s : MultihopState) : Prop where
  address : s.address ≠ GATEWAY_ADDR
  rounds : s.roundsWithoutLower.toNat ≤ 2
  counted : s.ring ≠ UNKNOWN_RING → s.roundsWithoutLower.toNat ≤ earlier.length ∧
    ∀ u ∈ earlier.take s.roundsWithoutLower.toNat, u.ring = s.ring ∧ u.Quiet

section Runs

variable {t : Turn} {earlier : List Turn}

private theorem Standing.listening (h : Standing earlier t.node.state) :
    Listening t.node.state.resetNeighbors [] :=
  ⟨h.address, h.rounds, counted_empty, fun _ hr => absurd hr List.not_mem_nil⟩

private theorem Turn.Steady.few_fresh (h : t.Steady) : (fresh t.groups.flatten).length < 256 := by
  rw [fresh, List.length_reverse]
  exact h.few

private theorem Turn.Steady.groups (h : t.Steady) :
    SteadyGroups t.node.state.resetNeighbors t.groups := by
  have hlen : t.groups.length = t.phase.passes.length := heardByPass_length _ _ _
  rw [SteadyGroups, hlen]
  exact h.counts

private theorem finish_state (t : Turn) :
    t.finish.state = t.groups.foldl hearAndUpdate t.node.state.resetNeighbors := by
  rw [Turn.finish, after_state, ← heardByPass_length t.phase.passes]
  exact congrArg (fun g => List.foldl hearAndUpdate _ g) (List.take_length)

private theorem Standing.turn (h : Standing earlier t.node.state) (hs : t.Steady) :
    Standing (t :: earlier) t.finish.state ∧
      ∀ k, t.ring < (t.after k).state.ring →
        2 ≤ earlier.length ∧ ∀ u ∈ t :: earlier.take 2, u.ring = t.ring ∧ u.Quiet := by
  have hlisten := h.listening
  obtain ⟨hleaves, hrise⟩ := hlisten.steady hs.few_fresh hs.groups
  have hend := hlisten.passes t.groups (by simpa using hs.few_fresh)
  constructor
  · rw [finish_state]
    refine ⟨hend.address, hend.rounds, ?_⟩
    intro hknown
    rcases hleaves with hu | hz | ⟨hring, hrounds, hquiet⟩
    · exact absurd hu hknown
    · rw [hz]
      exact ⟨Nat.zero_le _, fun u hu => by simp at hu⟩
    · rw [hring] at hknown ⊢
      obtain ⟨hlen, hbefore⟩ := h.counted hknown
      have hrounds : _ ≤ t.node.state.roundsWithoutLower.toNat + 1 := hrounds
      refine ⟨by rw [List.length_cons]; omega, ?_⟩
      intro u hu
      have hmem : u ∈ t :: earlier.take t.node.state.roundsWithoutLower.toNat := by
        rw [← List.take_succ_cons]
        exact List.take_subset_take_left _ hrounds hu
      rcases List.mem_cons.mp hmem with rfl | hmem
      · exact ⟨rfl, hquiet⟩
      · exact hbefore u hmem
  · intro k hk
    rw [after_state] at hk
    obtain ⟨hknown, htwo, hquiet⟩ := hrise k hk
    have htwo : t.node.state.roundsWithoutLower.toNat = 2 := htwo
    obtain ⟨hlen, hbefore⟩ := h.counted hknown
    rw [htwo] at hlen hbefore
    refine ⟨hlen, ?_⟩
    intro u hu
    rcases List.mem_cons.mp hu with rfl | hu
    · exact ⟨rfl, hquiet⟩
    · exact hbefore u hu

private theorem Run.standing (hrun : Run (t :: earlier)) (hs : ∀ u ∈ earlier, u.Steady) :
    Standing earlier t.node.state := by
  induction earlier generalizing t with
  | nil =>
      obtain ⟨ha, hz⟩ := hrun
      exact ⟨ha, by rw [hz]; exact Nat.zero_le _, fun _ => ⟨by rw [hz]; exact Nat.zero_le _,
        fun u hu => by simp at hu⟩⟩
  | cons u earlier ih =>
      obtain ⟨ha, hring, hrounds, hrun⟩ := hrun
      have hbefore := (ih hrun fun v hv => hs v (List.mem_cons_of_mem _ hv)).turn
        (hs u List.mem_cons_self)
      have hring : t.node.state.ring = u.finish.state.ring := hring
      refine ⟨ha ▸ hbefore.1.address, hrounds ▸ hbefore.1.rounds, ?_⟩
      rw [hrounds, hring]
      exact hbefore.1.counted

end Runs

/-- In a run of steady phases the ring rises only in the third of three quiet phases. -/
theorem rises_after_three {turns : List Turn} (hrun : Run turns) (hsteady : ∀ t ∈ turns, t.Steady) :
    RisesAfterThree turns := by
  induction turns with
  | nil => trivial
  | cons t earlier ih =>
      have hearlier : ∀ u ∈ earlier, u.Steady := fun u hu => hsteady u (List.mem_cons_of_mem _ hu)
      refine ⟨((hrun.standing hearlier).turn (hsteady t List.mem_cons_self)).2, ih ?_ hearlier⟩
      cases earlier with
      | nil => trivial
      | cons u earlier => exact hrun.2.2.2

def beat (src : Address) (ring : Ring) : Queue.Arrival :=
  .accepted [Message.toBytes ⟨72, src, .heartbeat ring⟩]

def anchoredTurn : Turn where
  node := { setupNode 5 with state := { (setupNode 5).state with ring := 2 } }
  phase :=
    { durationMs := 1200
      start := reading 1000 72 .timedOut
      passes := [reading 1100 72 (beat 1 1)]
      live := by decide }

/-- The loop of the phase finds its deadline reached at `millis`. -/
def Turn.Ends (t : Turn) (millis : UInt32) : Prop :=
  (MsDeadline.create t.phase.durationMs (t.phase.start.millis 0)).reached millis = true

instance (t : Turn) (millis : UInt32) : Decidable (t.Ends millis) :=
  inferInstanceAs (Decidable (_ = true))

/-- A pass that begins at `head` and hears nothing until the phase is over. -/
def lastPass (head now : UInt32) : Input :=
  { reading head now .timedOut with millis := fun i => if i = 0 then head else 2300 }

/-- A ring 2 node whose phase hears ring 1 in the second of three passes. -/
def settledTurn : Turn where
  node := anchoredTurn.node
  phase :=
    { durationMs := 1200
      start := reading 1000 72 .timedOut
      passes := [reading 1100 72 .timedOut, reading 1400 72 (beat 1 1), lastPass 1500 73]
      live := by decide }

/-- The next phase of a node, which hears nothing in one pass. -/
def silentTurn (now : UInt32) (t : Turn) : Turn where
  node := t.finish
  phase :=
    { durationMs := 1200
      start := reading 1000 now .timedOut
      passes := [lastPass 1100 now]
      live := by
        intro inp hinp
        rw [List.mem_singleton.mp hinp]
        change (MsDeadline.create 1200 1000).reached 1100 = false
        decide }

def silentRun : List Turn :=
  let t := silentTurn 142 settledTurn
  let t' := silentTurn 213 t
  [silentTurn 284 t', t', t, settledTurn]

/-- Of phases that all come to their end, the third silent one raises the ring. -/
theorem silent_run_rises_after_three :
    RisesAfterThree silentRun ∧ (∀ t ∈ silentRun, t.Ends 2300) ∧
      ∃ t ∈ silentRun, t.ring = 2 ∧ t.finish.state.ring = UNKNOWN_RING := by
  have hrun : Run silentRun :=
    ⟨rfl, rfl, rfl, rfl, rfl, rfl, rfl, rfl, rfl, by decide, by decide⟩
  refine ⟨rises_after_three hrun ?_, by decide +kernel, ?_⟩
  · have hsettled : settledTurn.Steady := by
      refine ⟨by decide +kernel, Or.inr (Or.inr (Or.inr ⟨2, by decide, ?_⟩))⟩
      decide +kernel
    have hsilent (now : UInt32) (t : Turn)
        (hfew : ((silentTurn now t).groups.flatten.filter (· ≠ UNKNOWN_RING)).length < 256) :
        (silentTurn now t).Steady := ⟨hfew, Or.inr (Or.inl le_rfl)⟩
    intro t ht
    simp only [silentRun, List.mem_cons, List.not_mem_nil, or_false] at ht
    rcases ht with rfl | rfl | rfl | rfl
    · exact hsilent _ _ (by decide +kernel)
    · exact hsilent _ _ (by decide +kernel)
    · exact hsilent _ _ (by decide +kernel)
    · exact hsettled
  · exact ⟨_, List.mem_cons_self, by decide +kernel, by decide +kernel⟩

/-- The next phase: a timeout, a heartbeat of a peer and one of a node further out. -/
def crowdedTurn : Turn where
  node := anchoredTurn.finish
  phase :=
    { durationMs := 1200
      start := reading 72000 142 .timedOut
      passes := [reading 72100 142 .timedOut, reading 72400 142 (beat 6 2),
        reading 72700 143 (beat 9 3)]
      live := by decide }

/-- Three passes of one phase count as three rounds. -/
theorem ring_rises_within_one_phase :
    Run [crowdedTurn, anchoredTurn] ∧ crowdedTurn.ring < crowdedTurn.finish.state.ring ∧
      (∃ r ∈ anchoredTurn.groups.flatten, r < anchoredTurn.ring) ∧
        ¬ RisesAfterThree [crowdedTurn, anchoredTurn] := by
  have hrise : crowdedTurn.ring < crowdedTurn.finish.state.ring := by decide +kernel
  refine ⟨⟨rfl, rfl, rfl, by decide, by decide⟩, hrise, by decide +kernel, ?_⟩
  intro h
  exact absurd (h.1 _ hrise).1 (by decide)

end LoraMultihop.Multihop.Hysteresis
