/- digest: What any history of clock readings leaves of the cached window, on one node and two. -/

import Mathlib.Tactic
import LoraMultihop.Link.Layer

set_option autoImplicit false
set_option relaxedAutoImplicit false

namespace LoraMultihop.Link.Windows

open LoraMultihop.Foundation.Periodic
open LoraMultihop.Net.Params
open LoraMultihop.Link.Mac
open LoraMultihop.Link.Layer

def boot : State where
  initialized := false
  node := ⟨0, 0⟩
  mac := ⟨0, 0, 0, 0, 0⟩
  macState := MacState.zero
  link := ⟨0, fun _ => 0, 0, fun _ => 0, 0⟩
  state := LinkState.fresh

/-- The state after one `init` read the clock at `now`, where `init` returns `ok`. -/
def started (node : NodeParams) (mac : MacParams) (link : LinkParams) (now : UInt32) : State :=
  (init node mac link now boot).2

def Starts (node : NodeParams) (mac : MacParams) (link : LinkParams) (now : UInt32) : Prop :=
  (init node mac link now boot).1 = .ok

theorem started_timing {node : NodeParams} {mac : MacParams} {link : LinkParams} {now : UInt32}
    (h : Starts node mac link now) :
    timing (started node mac link now) = (true, mac, refreshWindow mac MacState.zero now) := by
  unfold Starts at h
  unfold started
  unfold init at h ⊢
  split_ifs at h ⊢
  rfl

theorem runCalls_timing {mac : MacParams} {P : MacState → Prop} {ok : UInt32 → Prop}
    (step : ∀ w now, ok now → P w → P (refreshWindow mac w now)) (calls : List Call) (s : State)
    (hs : s.initialized = true ∧ s.mac = mac ∧ P s.macState)
    (hok : ∀ c ∈ calls, ∀ now, c.reading = some now → ok now) :
    (runCalls calls s).initialized = true ∧ (runCalls calls s).mac = mac ∧
      P (runCalls calls s).macState := by
  induction calls generalizing s with
  | nil => exact hs
  | cons c calls ih =>
      obtain ⟨hi, hm, hp⟩ := hs
      have hrest : ∀ c' ∈ calls, ∀ now, c'.reading = some now → ok now :=
        fun c' hc' => hok c' (List.mem_cons_of_mem c hc')
      rw [runCalls_cons]
      apply ih _ _ hrest
      rcases exec_timing c s hi with h | ⟨now, hnow, h⟩
      · simp only [timing, Prod.mk.injEq] at h
        obtain ⟨h1, h2, h3⟩ := h
        exact ⟨h1.trans hi, h2.trans hm, h3 ▸ hp⟩
      · simp only [timing, refreshed, Prod.mk.injEq] at h
        obtain ⟨h1, h2, h3⟩ := h
        refine ⟨h1.trans hi, h2.trans hm, ?_⟩
        rw [h3, hm]
        exact step _ now (hok c List.mem_cons_self now hnow) hp

section Agreement

variable {mac : MacParams}

private theorem runCalls_aligned (hs : Scheduled mac) {node : NodeParams} {link : LinkParams}
    {first : UInt32} (hstart : Starts node mac link first) (hfirst : Early mac first)
    (calls : List Call) (hcalls : ∀ c ∈ calls, ∀ now, c.reading = some now → Early mac now) :
    (runCalls calls (started node mac link first)).initialized = true ∧
      (runCalls calls (started node mac link first)).mac = mac ∧
      Aligned mac (runCalls calls (started node mac link first)).macState := by
  have ht := started_timing hstart
  simp only [timing, Prod.mk.injEq] at ht
  obtain ⟨h1, h2, h3⟩ := ht
  apply runCalls_timing (fun w now hnow hw => hw.refresh hs hnow) calls _ _ hcalls
  refine ⟨h1, h2, ?_⟩
  rw [h3]
  exact (refreshWindow_of_after hs hfirst (by simp [MacState.zero])).1

private theorem activeSlot_of_aligned (hs : Scheduled mac) {s : State} (hm : s.mac = mac)
    (hw : Aligned mac s.macState) {t : UInt32} (ht : Early mac t)
    (hact : 0 ≤ (activeSlot t s).1) :
    (activeSlot t s).1 =
        ((t.toNat % mac.superframeFrequencyS.toNat / mac.slotDuration.toNat : Nat) : Int) ∧
      (activeSlot t s).1 < mac.superframeSlotCount.toNat := by
  subst hm
  have hw' := hw.refresh hs ht
  simp only [activeSlot, currentSlot] at hact ⊢
  by_cases ha : inActiveWindow (refreshWindow s.mac s.macState t) t = true
  · rw [hw'.slotOf_eq hs ha]
    have hlt := div_slotDuration_lt (hw'.offset hs ha).2
    exact ⟨rfl, by exact_mod_cast hlt⟩
  · rw [slotOf_inactive ha] at hact
    omega

private theorem recv_touches (hs : Scheduled mac) {s : State} (hm : s.mac = mac)
    (hw : Aligned mac s.macState) {t : UInt32} (ht : Early mac t) (timeoutMs : UInt32)
    (radio : WaitRecv) (hop : (recv t timeoutMs radio s).2.2 ≠ []) :
    t.toNat % mac.superframeFrequencyS.toNat < mac.windowLength.toNat := by
  subst hm
  unfold recv at hop
  dsimp only at hop
  split_ifs at hop with h1 h2
  · exact absurd rfl hop
  · exact absurd rfl hop
  · exact ((hw.refresh hs ht).offset hs (Bool.not_eq_false _ ▸ h2)).2

private theorem flush_touches (hs : Scheduled mac) {s : State} (hm : s.mac = mac)
    (hw : Aligned mac s.macState) {t : UInt32} (ht : Early mac t) (stamp : UInt32)
    (sent : Bool) (hop : (flush t stamp sent s).2.2 ≠ []) :
    t.toNat % mac.superframeFrequencyS.toNat < mac.windowLength.toNat := by
  subst hm
  unfold flush at hop
  dsimp only at hop
  split_ifs at hop with h1 h2
  · exact absurd rfl hop
  · exact absurd rfl hop
  · exact ((hw.refresh hs ht).offset hs (Bool.not_eq_false _ ▸ h2)).2

/-- Two nodes with the same parameters never disagree on the active slot, and neither touches the
radio outside the window, whatever readings their clocks gave them before. -/
theorem active_slots_agree (hs : Scheduled mac) (node₁ node₂ : NodeParams)
    (link₁ link₂ : LinkParams) (first₁ first₂ : UInt32)
    (hstart₁ : Starts node₁ mac link₁ first₁) (hstart₂ : Starts node₂ mac link₂ first₂)
    (hfirst₁ : Early mac first₁) (hfirst₂ : Early mac first₂) (calls₁ calls₂ : List Call)
    (hcalls₁ : ∀ c ∈ calls₁, ∀ now, c.reading = some now → Early mac now)
    (hcalls₂ : ∀ c ∈ calls₂, ∀ now, c.reading = some now → Early mac now)
    (t : UInt32) (ht : Early mac t) :
    let s₁ := runCalls calls₁ (started node₁ mac link₁ first₁)
    let s₂ := runCalls calls₂ (started node₂ mac link₂ first₂)
    (0 ≤ (activeSlot t s₁).1 → 0 ≤ (activeSlot t s₂).1 →
        (activeSlot t s₁).1 = (activeSlot t s₂).1 ∧
          (activeSlot t s₁).1 =
            ((t.toNat % mac.superframeFrequencyS.toNat / mac.slotDuration.toNat : Nat) : Int) ∧
          (activeSlot t s₁).1 < mac.superframeSlotCount.toNat) ∧
      (∀ timeoutMs radio, (recv t timeoutMs radio s₁).2.2 ≠ [] →
        t.toNat % mac.superframeFrequencyS.toNat < mac.windowLength.toNat) ∧
      (∀ stamp sent, (flush t stamp sent s₁).2.2 ≠ [] →
        t.toNat % mac.superframeFrequencyS.toNat < mac.windowLength.toNat) := by
  intro s₁ s₂
  obtain ⟨_, hm₁, hw₁⟩ := runCalls_aligned hs hstart₁ hfirst₁ calls₁ hcalls₁
  obtain ⟨_, hm₂, hw₂⟩ := runCalls_aligned hs hstart₂ hfirst₂ calls₂ hcalls₂
  refine ⟨?_, ?_, ?_⟩
  · intro hact₁ hact₂
    obtain ⟨heq₁, hlt⟩ := activeSlot_of_aligned hs hm₁ hw₁ ht hact₁
    obtain ⟨heq₂, _⟩ := activeSlot_of_aligned hs hm₂ hw₂ ht hact₂
    exact ⟨heq₁.trans heq₂.symm, heq₁, hlt⟩
  · intro timeoutMs radio hop
    exact recv_touches hs hm₁ hw₁ ht timeoutMs radio hop
  · intro stamp sent hop
    exact flush_touches hs hm₁ hw₁ ht stamp sent hop

theorem setup_slots_agree :
    let s₁ := runCalls [.activeSlot 130, .activeSlot 72] (started ⟨1, 0⟩ setupMac setupLink 71)
    let s₂ := runCalls [.flush 72 72 true] (started ⟨2, 0⟩ setupMac setupLink 3)
    (activeSlot 75 s₁).1 = (activeSlot 75 s₂).1 ∧ (activeSlot 75 s₁).1 = (75 % 71 / 3 : Nat) := by
  intro s₁ s₂
  have hmac : Scheduled setupMac := ⟨by decide, by decide⟩
  have h := active_slots_agree hmac ⟨1, 0⟩ ⟨2, 0⟩ setupLink setupLink 71 3
    (by unfold Starts; decide) (by unfold Starts; decide) (by unfold Early; decide)
    (by unfold Early; decide) [.activeSlot 130, .activeSlot 72] [.flush 72 72 true]
    (by simp [Call.reading, Early]; decide) (by simp [Call.reading, Early]; decide) 75
    (by unfold Early; decide)
  obtain ⟨heq, hval, -⟩ := h.1 (by decide) (by decide)
  exact ⟨heq, hval⟩

end Agreement

end LoraMultihop.Link.Windows
