/- digest: When the time sync of a join leaves a follower in step with its clusterhead. -/

import LoraMultihop.Link.Windows
import LoraMultihop.Multihop.Advertise

set_option autoImplicit false
set_option relaxedAutoImplicit false

namespace LoraMultihop.Multihop.TimeSync

open LoraMultihop.Foundation.Periodic
open LoraMultihop.Net.Params
open LoraMultihop.Link.Mac
open LoraMultihop.Link.Layer
open LoraMultihop.Link.Windows
open LoraMultihop.Multihop.Messages (Message)
open LoraMultihop.Multihop.Sending (MAX_TIME_SYNC_DRIFT_S Node)
open LoraMultihop.Multihop.Discovery (Input)
open LoraMultihop.Multihop.Advertise (JoinLocals join join_cases join_link trySecond)

def drift (localTime remoteTime : UInt32) : UInt32 :=
  if localTime < remoteTime then remoteTime - localTime else localTime - remoteTime

/-- The clock of a follower after the time sync of `run_clusterhead_joining`. -/
def syncTime (localTime remoteTime : UInt32) : UInt32 :=
  if drift localTime remoteTime ≤ MAX_TIME_SYNC_DRIFT_S then remoteTime else localTime

/-- The clock after a message of the joining loop; `join` is what the message does to the node. -/
def joinClock (l : JoinLocals) (m : Message) (n : Node) (localTime : UInt32) : UInt32 :=
  match m.body with
  | .accept accepted follower _ _ remoteTimeS =>
      if l.joined = false ∧ l.eligibleFollower = true ∧ m.src = l.targetNode ∧
          follower = n.state.address ∧ accepted ≠ 0 then
        syncTime localTime remoteTimeS
      else localTime
  | _ => localTime

/-- A follower joins on an Accept of its target, with the time sync, and keeps the link layer it
has: the cached window is the one of the clock before. -/
theorem join_syncs {inp : Input} {l : JoinLocals} {m : Message} {n : Node} {durationMs : UInt32}
    (hopen : l.joined = false) (h : (join inp l m n durationMs).2.1.joined = true)
    (localTime : UInt32) :
    ∃ accepted start relative remote,
      m.body = .accept accepted n.state.address start relative remote ∧
        joinClock l m n localTime = syncTime localTime remote ∧
          (join inp l m n durationMs).2.2.link = n.link := by
  have hsecond : (trySecond inp durationMs n.state l).joined = false := by
    rw [trySecond, ← hopen]
    dsimp only
    split_ifs <;> rfl
  rcases join_cases inp l m n durationMs with heq | ⟨-, heq⟩ |
    ⟨accepted, start, relative, remote, hbody, haccepted, hsrc, heligible, -, -⟩
  · rw [heq, hopen] at h
    exact absurd h (by decide)
  · rw [heq, hsecond] at h
    exact absurd h (by decide)
  · refine ⟨accepted, start, relative, remote, hbody, ?_, join_link ..⟩
    rw [joinClock, hbody]
    exact if_pos ⟨hopen, heligible, hsrc, rfl, haccepted⟩

/-- A node initialised with `mac`, after any calls of the link layer at any readings. -/
def Reached (mac : MacParams) (s : State) : Prop :=
  ∃ node link first calls, Starts node mac link first ∧
    s = runCalls calls (started node mac link first)

/-- The slot at the reading `t`, after `active_slot` at each of the readings before. -/
def slotAfter (readings : List UInt32) (t : UInt32) (s : State) : Int :=
  (activeSlot t (runCalls (readings.map Call.activeSlot) s)).1

/-- Readings of a clock that starts at `start`, up to the reading `t`. -/
def Passes (start t : UInt32) (readings : List UInt32) : Prop :=
  (start :: (readings ++ [t])).Pairwise (· ≤ ·)

/-- From `start` to the end of the clusterhead's window the two nodes find the same slot, wherever
each of them has looked before. -/
def KeepsStep (start : UInt32) (clusterhead follower : State) : Prop :=
  ∀ (chReadings readings : List UInt32) (t : UInt32), t < clusterhead.macState.windowEnd →
    Passes start t chReadings → Passes start t readings →
      slotAfter readings t follower = slotAfter chReadings t clusterhead

/-- The first second from `start` on at which the window `w` is over. -/
def renewal (w : MacState) (start : UInt32) : UInt32 :=
  if w.windowEnd ≤ start then start else w.windowEnd

/-- A window computed at `e` lasts to `windowEnd`, and so does each one computed later: `e` is the
last second before `windowEnd`, or `next_time_interval` has wrapped by then. -/
def Renews (mac : MacParams) (e windowEnd : UInt32) : Prop :=
  let fresh := nextTimeInterval e mac.superframeFrequencyS
  (fresh < e ∨ fresh = e ∧ e + 1 = windowEnd) ∧ windowEnd ≤ fresh + mac.windowLength

/-- What the windows `ch` and `w`, cached by a clusterhead and a follower, have to be for the two
nodes to keep step from `start` on. Apart from equal windows that is a window of one slot that
the follower's next windows go on covering, or a clusterhead's window computed over the wrap. -/
def InStep (mac : MacParams) (start : UInt32) (ch w : MacState) : Prop :=
  w.windowStart = ch.windowStart ∨
    (w.windowEnd ≤ start ∧ nextTimeInterval start mac.superframeFrequencyS < start ∧
      nextTimeInterval start mac.superframeFrequencyS = ch.windowStart) ∨
    mac.windowLength ≤ mac.slotDuration ∧ w.windowStart ≤ start ∧
      (ch.windowEnd ≤ w.windowEnd ∨ Renews mac (renewal w start) ch.windowEnd)

section Readings

variable {mac : MacParams} {w v : MacState} {start t windowEnd : UInt32} {readings : List UInt32}

/-- The cached window after `active_slot` at each of the readings. -/
def windowAfter (mac : MacParams) (readings : List UInt32) (w : MacState) : MacState :=
  readings.foldl (refreshWindow mac) w

private theorem slotAfter_eq (readings : List UInt32) (t : UInt32) (s : State) :
    slotAfter readings t s =
      slotOf s.mac (refreshWindow s.mac (windowAfter s.mac readings s.macState) t) t := by
  induction readings generalizing s with
  | nil => rfl
  | cons r readings ih => exact ih (activeSlot r s).2

private theorem Passes.bounds (h : Passes start t readings) :
    start ≤ t ∧ ∀ r ∈ readings, start ≤ r ∧ r ≤ t := by
  obtain ⟨hstart, hrest⟩ := List.pairwise_cons.mp h
  obtain ⟨-, -, hlast⟩ := List.pairwise_append.mp hrest
  refine ⟨hstart t (by simp), ?_⟩
  intro r hr
  exact ⟨hstart r (List.mem_append_left _ hr), hlast r hr t (by simp)⟩

private theorem passes_nil (h : start ≤ t) : Passes start t [] := by
  simpa [Passes] using h

private theorem passes_singleton {r : UInt32} (hr : start ≤ r) (ht : r ≤ t) :
    Passes start t [r] := by
  simp [Passes, hr, ht, UInt32.le_trans hr ht]

private theorem windowAfter_inside (h : ∀ r ∈ readings, r < w.windowEnd) :
    windowAfter mac readings w = w := by
  induction readings with
  | nil => rfl
  | cons r readings ih =>
      have hr := UInt32.lt_iff_toNat_lt.mp (h r List.mem_cons_self)
      rw [windowAfter, List.foldl_cons, refreshWindow_of_before hr]
      exact ih fun r' hr' => h r' (List.mem_cons_of_mem _ hr')

private theorem slotAfter_inside {s : State} (ht : t < s.macState.windowEnd)
    (h : ∀ r ∈ readings, r ≤ t) : slotAfter readings t s = slotOf s.mac s.macState t := by
  rw [slotAfter_eq, windowAfter_inside fun r hr => UInt32.lt_of_le_of_lt (h r hr) ht,
    refreshWindow_of_before (UInt32.lt_iff_toNat_lt.mp ht)]

private theorem windowAfter_renewed (hlast : windowEnd ≤ v.windowEnd)
    (hrenew : ∀ r, start ≤ r → r < windowEnd → w.windowEnd ≤ r → refreshWindow mac w r = v)
    (h : ∀ r ∈ readings, start ≤ r ∧ r < windowEnd) :
    windowAfter mac readings w = w ∨ windowAfter mac readings w = v := by
  induction readings with
  | nil => exact Or.inl rfl
  | cons r readings ih =>
      obtain ⟨hlo, hhi⟩ := h r List.mem_cons_self
      have hrest : ∀ r' ∈ readings, start ≤ r' ∧ r' < windowEnd :=
        fun r' hr' => h r' (List.mem_cons_of_mem _ hr')
      rw [windowAfter, List.foldl_cons]
      by_cases hended : w.windowEnd ≤ r
      · right
        rw [hrenew r hlo hhi hended]
        exact windowAfter_inside fun r' hr' => UInt32.lt_of_lt_of_le (hrest r' hr').2 hlast
      · rw [refreshWindow_of_before (UInt32.lt_iff_toNat_lt.mp (UInt32.not_le.mp hended))]
        exact ih hrest

private theorem refresh_renewed (hlast : windowEnd ≤ v.windowEnd)
    (hrenew : ∀ r, start ≤ r → r < windowEnd → w.windowEnd ≤ r → refreshWindow mac w r = v)
    (hp : Passes start t readings) (ht : t < windowEnd) :
    t < w.windowEnd ∧ refreshWindow mac (windowAfter mac readings w) t = w ∨
      w.windowEnd ≤ t ∧ refreshWindow mac (windowAfter mac readings w) t = v := by
  obtain ⟨hstart, hall⟩ := hp.bounds
  by_cases hin : t < w.windowEnd
  · left
    rw [windowAfter_inside fun r hr => UInt32.lt_of_le_of_lt (hall r hr).2 hin]
    exact ⟨hin, refreshWindow_of_before (UInt32.lt_iff_toNat_lt.mp hin)⟩
  · right
    have hended := UInt32.not_lt.mp hin
    refine ⟨hended, ?_⟩
    rcases windowAfter_renewed hlast hrenew
      (fun r hr => ⟨(hall r hr).1, UInt32.lt_of_le_of_lt (hall r hr).2 ht⟩) with heq | heq
    · rw [heq]
      exact hrenew t hstart ht hended
    · rw [heq]
      exact refreshWindow_of_before (UInt32.lt_iff_toNat_lt.mp (UInt32.lt_of_lt_of_le ht hlast))

private theorem renewal_le : renewal w start ≤ t ↔ start ≤ t ∧ w.windowEnd ≤ t := by
  rw [renewal]
  split_ifs with hended
  · exact ⟨fun h => ⟨h, UInt32.le_trans hended h⟩, fun h => h.1⟩
  · have hlt := UInt32.le_of_lt (UInt32.not_le.mp hended)
    exact ⟨fun h => ⟨UInt32.le_trans hlt h, h⟩, fun h => h.2⟩

private theorem renewal_lt (hstart : start < t) (hend : w.windowEnd < t) : renewal w start < t := by
  rw [renewal]
  split_ifs
  · exact hstart
  · exact hend

end Readings

/-- A window as the code computes it: the end is the start and the length, added in 32 bits. -/
def Cached (mac : MacParams) (w : MacState) : Prop :=
  w.windowEnd = w.windowStart + mac.windowLength

section Windows

variable {mac : MacParams} {ch w : MacState} {now start : UInt32}

private theorem Cached.refresh (h : Cached mac w) (now : UInt32) :
    Cached mac (refreshWindow mac w now) := by
  rw [refreshWindow]
  split_ifs
  · rfl
  · exact h

private theorem Cached.ext (hch : Cached mac ch) (h : Cached mac w)
    (hstart : w.windowStart = ch.windowStart) : w = ch := by
  have hend : w.windowEnd = ch.windowEnd := by rw [h, hch, hstart]
  calc w = ⟨w.windowStart, w.windowEnd⟩ := rfl
    _ = ch := by rw [hstart, hend]

private theorem Cached.length (h : Cached mac w) (ha : inActiveWindow w now = true) :
    w.windowEnd.toNat = w.windowStart.toNat + mac.windowLength.toNat := by
  obtain ⟨hlo, hhi⟩ := inActiveWindow_iff.mp ha
  have hsum := congrArg UInt32.toNat h
  rw [UInt32.toNat_add] at hsum
  have hstart := w.windowStart.toNat_lt
  have hlength := mac.windowLength.toNat_lt
  omega

private theorem Cached.slotOf_eq (h : Cached mac w) (ha : inActiveWindow w now = true) :
    slotOf mac w now =
      (((now.toNat - w.windowStart.toNat) / mac.slotDuration.toNat : Nat) : Int) :=
  slotOf_active (h.length ha) ha

/-- The windows right after a join: the clusterhead in slot 0 at `start`, the follower's window of
the same length somewhere. -/
structure Joined (mac : MacParams) (ch w : MacState) (start : UInt32) : Prop where
  fits : mac.windowLength.toNat ≤ mac.superframeFrequencyS.toNat
  positive : 0 < mac.windowLength.toNat
  chCached : Cached mac ch
  cached : Cached mac w
  active : inActiveWindow ch start = true
  first : start.toNat < ch.windowStart.toNat + mac.slotDuration.toNat
  length : w.windowEnd.toNat = w.windowStart.toNat + mac.windowLength.toNat

/-- `KeepsStep` on the windows alone: the clusterhead stays in `ch` to its end. -/
def Follows (mac : MacParams) (start : UInt32) (ch w : MacState) : Prop :=
  ∀ readings t, t < ch.windowEnd → Passes start t readings →
    slotOf mac (refreshWindow mac (windowAfter mac readings w) t) t = slotOf mac ch t

private theorem keepsStep_iff_follows {clusterhead follower : State} (hmac : follower.mac = mac)
    (hmac' : clusterhead.mac = mac) :
    KeepsStep start clusterhead follower ↔
      Follows mac start clusterhead.macState follower.macState := by
  constructor
  · intro h readings t ht hp
    have heq := h [] readings t ht (passes_nil hp.bounds.1) hp
    rwa [slotAfter_inside ht (fun r hr => absurd hr List.not_mem_nil), slotAfter_eq, hmac,
      hmac'] at heq
  · intro h chReadings readings t ht hch hf
    rw [slotAfter_inside ht fun r hr => (hch.bounds.2 r hr).2, slotAfter_eq, hmac, hmac']
    exact h readings t ht hf

end Windows

section Joined

variable {mac : MacParams} {ch w v : MacState} {start t e : UInt32}

private theorem Joined.superframe (j : Joined mac ch w start) :
    0 < mac.superframeFrequencyS.toNat :=
  lt_of_lt_of_le j.positive j.fits

private theorem Joined.chLength (j : Joined mac ch w start) :
    ch.windowEnd.toNat = ch.windowStart.toNat + mac.windowLength.toNat :=
  j.chCached.length j.active

private theorem Joined.ch_active (j : Joined mac ch w start) (hstart : start ≤ t)
    (ht : t < ch.windowEnd) : inActiveWindow ch t = true := by
  have hlo := (inActiveWindow_iff.mp j.active).1
  have hstart := UInt32.le_iff_toNat_le.mp hstart
  exact inActiveWindow_iff.mpr ⟨by omega, UInt32.lt_iff_toNat_lt.mp ht⟩

private theorem Joined.agree (j : Joined mac ch w start) (hv : Cached mac v) (hstart : start ≤ t)
    (ht : t < ch.windowEnd) (heq : slotOf mac v t = slotOf mac ch t) :
    inActiveWindow v t = true ∧ (t.toNat - v.windowStart.toNat) / mac.slotDuration.toNat =
      (t.toNat - ch.windowStart.toNat) / mac.slotDuration.toNat := by
  rw [j.chCached.slotOf_eq (j.ch_active hstart ht)] at heq
  have ha : inActiveWindow v t = true := by
    by_contra hout
    have hge := Int.natCast_nonneg
      ((t.toNat - ch.windowStart.toNat) / mac.slotDuration.toNat)
    rw [slotOf_inactive hout] at heq
    omega
  rw [hv.slotOf_eq ha] at heq
  exact ⟨ha, Int.ofNat_inj.mp heq⟩

private theorem Joined.same_start (j : Joined mac ch w start) (hv : Cached mac v)
    (hlong : mac.slotDuration.toNat < mac.windowLength.toNat) (hin : start < v.windowEnd)
    (h : ∀ t, start ≤ t → t < ch.windowEnd →
      slotOf mac (refreshWindow mac v t) t = slotOf mac ch t) :
    v.windowStart = ch.windowStart := by
  obtain ⟨hlo, hhi⟩ := inActiveWindow_iff.mp j.active
  have hin := UInt32.lt_iff_toNat_lt.mp hin
  have hstay {t : UInt32} (ht : t.toNat < v.windowEnd.toNat) : refreshWindow mac v t = v :=
    refreshWindow_of_before ht
  have hnow := h start (UInt32.le_refl _) (UInt32.lt_iff_toNat_lt.mpr hhi)
  rw [hstay hin] at hnow
  obtain ⟨hactive, -⟩ := j.agree hv (UInt32.le_refl _) (UInt32.lt_iff_toNat_lt.mpr hhi) hnow
  have hlen := hv.length hactive
  have hchLen := j.chLength
  apply UInt32.toNat_inj.mp
  apply start_eq_of_slots hlong hlo (inActiveWindow_iff.mp hactive).1 j.first (by omega)
  intro t hstart ht htv
  have hend := ch.windowEnd.toNat_lt
  have hsmall : t < 2 ^ 32 := by omega
  have hval : (UInt32.ofNat t).toNat = t := UInt32.toNat_ofNat_of_lt' hsmall
  have hle : start ≤ UInt32.ofNat t := UInt32.le_iff_toNat_le.mpr (by omega)
  have hlt : UInt32.ofNat t < ch.windowEnd := UInt32.lt_iff_toNat_lt.mpr (by omega)
  have heq := h (UInt32.ofNat t) hle hlt
  rw [hstay (by omega)] at heq
  have hslots := (j.agree hv hle hlt heq).2
  rwa [hval] at hslots

private theorem inactive_after_boundary (hi : 1 < mac.superframeFrequencyS.toNat)
    (hd : mac.superframeFrequencyS.toNat ∣ e.toNat)
    (hwrap : e.toNat + mac.windowLength.toNat < 2 ^ 32)
    (hnext : (e + 1).toNat = e.toNat + 1) (hv : Cached mac v)
    (hstart : v.windowStart = nextTimeInterval (e + 1) mac.superframeFrequencyS) :
    ¬ inActiveWindow v (e + 1) = true := by
  intro hactive
  obtain ⟨hlo, hhi⟩ := inActiveWindow_iff.mp hactive
  rw [hv.length hactive] at hhi
  have hmod : (e + 1).toNat % mac.superframeFrequencyS.toNat = 1 := by
    rw [hnext, Nat.add_mod, Nat.mod_eq_zero_of_dvd hd, Nat.zero_add, Nat.mod_mod,
      Nat.mod_eq_of_lt hi]
  have hd' : ¬ mac.superframeFrequencyS.toNat ∣ (e + 1).toNat := by
    intro hdvd
    rw [Nat.mod_eq_zero_of_dvd hdvd] at hmod
    omega
  have hsum := nextTimeInterval_of_not_dvd (by omega) hd'
  rw [← hstart, hmod, hnext, Nat.add_sub_cancel] at hsum
  have hinterval := mac.superframeFrequencyS.toNat_lt
  by_cases hover : e.toNat + mac.superframeFrequencyS.toNat < 2 ^ 32
  · omega
  · -- the boundary is not the first one, since the period is below the wrap
    have hge : mac.superframeFrequencyS.toNat ≤ e.toNat := Nat.le_of_dvd (by omega) hd
    omega

end Joined

section Directions

variable {mac : MacParams} {ch w : MacState} {start : UInt32}

private theorem Follows.first (h : Follows mac start ch w) {t : UInt32} (hstart : start ≤ t)
    (ht : t < ch.windowEnd) : slotOf mac (refreshWindow mac w t) t = slotOf mac ch t :=
  h [] t ht (passes_nil hstart)

private theorem Follows.second (h : Follows mac start ch w) {r t : UInt32} (hr : start ≤ r)
    (hrt : r ≤ t) (ht : t < ch.windowEnd) :
    slotOf mac (refreshWindow mac (refreshWindow mac w r) t) t = slotOf mac ch t :=
  h [r] t ht (passes_singleton hr hrt)

private theorem Follows.boundary_last (j : Joined mac ch w start) (h : Follows mac start ch w)
    {e : UInt32} (hstart : start ≤ e) (he : e < ch.windowEnd) (hended : w.windowEnd ≤ e)
    (hfresh : nextTimeInterval e mac.superframeFrequencyS = e) : e + 1 = ch.windowEnd := by
  have hi := j.superframe
  have hfits := j.fits
  have hpos := j.positive
  have hchLen := j.chLength
  have hlo := (inActiveWindow_iff.mp j.active).1
  have hstart' := UInt32.le_iff_toNat_le.mp hstart
  have he' := UInt32.lt_iff_toNat_lt.mp he
  have hend := ch.windowEnd.toNat_lt
  have hnext : (e + 1).toNat = e.toNat + 1 := by
    rw [UInt32.toNat_add]
    change (e.toNat + 1) % 2 ^ 32 = _
    omega
  have hd : mac.superframeFrequencyS.toNat ∣ e.toNat := by
    by_contra hd
    have hsum := nextTimeInterval_of_not_dvd hi hd
    have hmod := Nat.mod_lt e.toNat hi
    have hle := Nat.mod_le e.toNat mac.superframeFrequencyS.toNat
    have hne : e.toNat % mac.superframeFrequencyS.toNat ≠ 0 :=
      fun hz => hd (Nat.dvd_of_mod_eq_zero hz)
    have hinterval := mac.superframeFrequencyS.toNat_lt
    rw [hfresh] at hsum
    omega
  have hactive := (j.agree (j.cached.refresh e) hstart he (h.first hstart he)).1
  have hwindow := (j.cached.refresh e).length hactive
  rw [refreshWindow_over hended, hfresh] at hwindow
  dsimp only at hwindow
  have hwrap := (e + mac.windowLength).toNat_lt
  by_contra hlast
  have hlast : (e + 1).toNat ≠ ch.windowEnd.toNat := fun heq => hlast (UInt32.toNat_inj.mp heq)
  have hin : e + 1 < ch.windowEnd := UInt32.lt_iff_toNat_lt.mpr (by omega)
  have hafter : start ≤ e + 1 := UInt32.le_iff_toNat_le.mpr (by omega)
  have hended' : w.windowEnd ≤ e + 1 :=
    UInt32.le_iff_toNat_le.mpr (by have := UInt32.le_iff_toNat_le.mp hended; omega)
  have hactive' := (j.agree (j.cached.refresh (e + 1)) hafter hin (h.first hafter hin)).1
  refine inactive_after_boundary ?_ hd (by omega) hnext (j.cached.refresh (e + 1)) ?_ hactive'
  · omega
  · rw [refreshWindow_over hended']

private theorem Follows.windows_of_long (j : Joined mac ch w start) (h : Follows mac start ch w)
    (hlong : mac.slotDuration.toNat < mac.windowLength.toNat) :
    w.windowStart = ch.windowStart ∨
      (w.windowEnd ≤ start ∧ nextTimeInterval start mac.superframeFrequencyS < start ∧
        nextTimeInterval start mac.superframeFrequencyS = ch.windowStart) := by
  obtain ⟨hlo, hhi⟩ := inActiveWindow_iff.mp j.active
  have hin := UInt32.lt_iff_toNat_lt.mpr hhi
  have hchLen := j.chLength
  have hfirst := j.first
  by_cases hended : w.windowEnd ≤ start
  · right
    have hactive := (j.agree (j.cached.refresh start) (UInt32.le_refl _) hin
      (h.first (UInt32.le_refl _) hin)).1
    have hsame := j.same_start (j.cached.refresh start) hlong
      (UInt32.lt_iff_toNat_lt.mpr (inActiveWindow_iff.mp hactive).2)
      fun t hstart ht => h.second (UInt32.le_refl _) hstart ht
    rw [refreshWindow_over hended] at hsame
    dsimp only at hsame
    refine ⟨hended, ?_, hsame⟩
    rw [hsame]
    apply UInt32.lt_of_le_of_ne (UInt32.le_iff_toNat_le.mpr hlo)
    intro heq
    have hlast := h.boundary_last j (UInt32.le_refl _) hin hended (hsame.trans heq)
    have hlast := congrArg UInt32.toNat hlast
    rw [UInt32.toNat_add] at hlast
    have hstart := congrArg UInt32.toNat heq
    have hone : (1 : UInt32).toNat = 1 := rfl
    have hslot : 0 < mac.slotDuration.toNat := by omega
    have hend := ch.windowEnd.toNat_lt
    omega
  · left
    exact j.same_start j.cached hlong (UInt32.not_le.mp hended)
      fun t hstart ht => h.first hstart ht

private theorem Follows.windows_of_short (j : Joined mac ch w start) (h : Follows mac start ch w) :
    w.windowStart ≤ start ∧
      (ch.windowEnd ≤ w.windowEnd ∨ Renews mac (renewal w start) ch.windowEnd) := by
  obtain ⟨hlo, hhi⟩ := inActiveWindow_iff.mp j.active
  have hin := UInt32.lt_iff_toNat_lt.mpr hhi
  have hlen := j.length
  constructor
  · by_cases hended : w.windowEnd ≤ start
    · have hended := UInt32.le_iff_toNat_le.mp hended
      exact UInt32.le_iff_toNat_le.mpr (by omega)
    · have hnow := h.first (UInt32.le_refl _) hin
      rw [refreshWindow_of_before (UInt32.lt_iff_toNat_lt.mp (UInt32.not_le.mp hended))] at hnow
      have hactive := (j.agree j.cached (UInt32.le_refl _) hin hnow).1
      exact UInt32.le_iff_toNat_le.mpr (inActiveWindow_iff.mp hactive).1
  · by_cases hcovers : ch.windowEnd ≤ w.windowEnd
    · exact Or.inl hcovers
    right
    have hcovers := UInt32.not_le.mp hcovers
    obtain ⟨hstart, hended⟩ := renewal_le.mp (UInt32.le_refl (renewal w start))
    have he := renewal_lt hin hcovers
    generalize renewal w start = e at hstart hended he ⊢
    have hactive := (j.agree (j.cached.refresh e) hstart he (h.first hstart he)).1
    have hbounds := inActiveWindow_iff.mp hactive
    have hwindow := (j.cached.refresh e).length hactive
    rw [refreshWindow_over hended] at hbounds hwindow
    obtain ⟨hbegun, hlasts⟩ := hbounds
    dsimp only at hbegun hlasts hwindow
    by_cases hfresh : nextTimeInterval e mac.superframeFrequencyS = e
    · have hlast := h.boundary_last j hstart he hended hfresh
      refine ⟨Or.inr ⟨hfresh, hlast⟩, ?_⟩
      have hone : (e + 1).toNat ≤ e.toNat + 1 := by
        rw [UInt32.toNat_add]
        exact Nat.mod_le _ _
      rw [← hlast, UInt32.le_iff_toNat_le]
      omega
    · have hwrapped := UInt32.lt_of_le_of_ne (UInt32.le_iff_toNat_le.mpr hbegun) hfresh
      refine ⟨Or.inl hwrapped, ?_⟩
      -- at its end the fresh window would be computed once more, and be over again
      by_contra hshort
      have hshort := UInt32.not_le.mp hshort
      have hafter := UInt32.lt_iff_toNat_lt.mpr hlasts
      have hle := UInt32.le_of_lt hafter
      have hagain := h.second hstart hle hshort
      have hactive' := (j.agree ((j.cached.refresh e).refresh _)
        (UInt32.le_trans hstart hle) hshort hagain).1
      have hlt := (inActiveWindow_iff.mp hactive').2
      rw [refreshWindow_over hended, refreshWindow_over (UInt32.le_refl _),
        nextTimeInterval_stays j.superframe hwrapped hle] at hlt
      exact absurd hlt (Nat.lt_irrefl _)

private theorem Follows.inStep (j : Joined mac ch w start) (h : Follows mac start ch w) :
    InStep mac start ch w := by
  by_cases hlong : mac.slotDuration.toNat < mac.windowLength.toNat
  · rcases h.windows_of_long j hlong with hsame | hwrapped
    · exact Or.inl hsame
    · exact Or.inr (Or.inl hwrapped)
  · right; right
    exact ⟨UInt32.le_iff_toNat_le.mpr (by omega), h.windows_of_short j⟩

private theorem slotOf_short {v : MacState} {t : UInt32} (hv : Cached mac v)
    (hshort : mac.windowLength ≤ mac.slotDuration) (ha : inActiveWindow v t = true) :
    slotOf mac v t = 0 := by
  have hlen := hv.length ha
  obtain ⟨hlo, hhi⟩ := inActiveWindow_iff.mp ha
  have hshort := UInt32.le_iff_toNat_le.mp hshort
  rw [hv.slotOf_eq ha, Nat.div_eq_of_lt (by omega)]
  rfl

private theorem follows_of_covers (j : Joined mac ch w start)
    (hshort : mac.windowLength ≤ mac.slotDuration) (hbegun : w.windowStart ≤ start)
    (hcovers : ch.windowEnd ≤ w.windowEnd) : Follows mac start ch w := by
  intro readings t ht hp
  obtain ⟨hstart, hall⟩ := hp.bounds
  have hin := UInt32.lt_of_lt_of_le ht hcovers
  have hactive : inActiveWindow w t = true :=
    inActiveWindow_iff.mpr ⟨UInt32.le_iff_toNat_le.mp (UInt32.le_trans hbegun hstart),
      UInt32.lt_iff_toNat_lt.mp hin⟩
  rw [windowAfter_inside fun r hr => UInt32.lt_of_le_of_lt (hall r hr).2 hin,
    refreshWindow_of_before (UInt32.lt_iff_toNat_lt.mp hin), slotOf_short j.cached hshort hactive,
    slotOf_short j.chCached hshort (j.ch_active hstart ht)]

private theorem follows_of_renews (j : Joined mac ch w start)
    (hshort : mac.windowLength ≤ mac.slotDuration) (hbegun : w.windowStart ≤ start)
    (hrenews : Renews mac (renewal w start) ch.windowEnd) : Follows mac start ch w := by
  obtain ⟨hfresh, hlast⟩ := hrenews
  have hle : nextTimeInterval (renewal w start) mac.superframeFrequencyS ≤ renewal w start := by
    rcases hfresh with hwrapped | ⟨hnow, -⟩
    · exact UInt32.le_of_lt hwrapped
    · exact UInt32.le_of_eq hnow
  have hrenew (r : UInt32) (hstart : start ≤ r) (hr : r < ch.windowEnd)
      (hended : w.windowEnd ≤ r) : nextTimeInterval r mac.superframeFrequencyS =
        nextTimeInterval (renewal w start) mac.superframeFrequencyS := by
    have her : renewal w start ≤ r := renewal_le.mpr ⟨hstart, hended⟩
    rcases hfresh with hwrapped | ⟨-, hend⟩
    · exact nextTimeInterval_stays j.superframe hwrapped her
    · -- the boundary is the last second of the window
      have her := UInt32.le_iff_toNat_le.mp her
      have hr := UInt32.lt_iff_toNat_lt.mp hr
      have hone : (renewal w start + 1).toNat ≤ (renewal w start).toNat + 1 := by
        rw [UInt32.toNat_add]
        exact Nat.mod_le _ _
      rw [hend] at hone
      rw [UInt32.toNat_inj.mp (show r.toNat = (renewal w start).toNat by omega)]
  intro readings t ht hp
  have hstart := hp.bounds.1
  rw [slotOf_short j.chCached hshort (j.ch_active hstart ht)]
  rcases refresh_renewed (v := ⟨_, _⟩) hlast (fun r hlo hhi hended => by
    rw [refreshWindow_over hended, hrenew r hlo hhi hended]) hp ht with ⟨hin, heq⟩ | ⟨hended, heq⟩
  · rw [heq]
    apply slotOf_short j.cached hshort
    exact inActiveWindow_iff.mpr ⟨UInt32.le_iff_toNat_le.mp (UInt32.le_trans hbegun hstart),
      UInt32.lt_iff_toNat_lt.mp hin⟩
  · rw [heq]
    have hbefore := UInt32.le_trans hle (renewal_le.mpr ⟨hstart, hended⟩)
    refine slotOf_short rfl hshort (inActiveWindow_iff.mpr ?_)
    exact ⟨UInt32.le_iff_toNat_le.mp hbefore,
      UInt32.lt_iff_toNat_lt.mp (UInt32.lt_of_lt_of_le ht hlast)⟩

private theorem InStep.follows (j : Joined mac ch w start) (h : InStep mac start ch w) :
    Follows mac start ch w := by
  rcases h with hsame | ⟨hended, hwrapped, hsame⟩ | ⟨hshort, hbegun, hcovers | hrenews⟩
  · rw [Cached.ext j.chCached j.cached hsame]
    intro readings t ht hp
    rw [windowAfter_inside fun r hr => UInt32.lt_of_le_of_lt (hp.bounds.2 r hr).2 ht,
      refreshWindow_of_before (UInt32.lt_iff_toNat_lt.mp ht)]
  · have hrenew (r : UInt32) (hstart : start ≤ r) (_ : r < ch.windowEnd)
        (hover : w.windowEnd ≤ r) : refreshWindow mac w r = ch := by
      rw [refreshWindow_over hover, nextTimeInterval_stays j.superframe hwrapped hstart, hsame]
      exact Cached.ext j.chCached rfl rfl
    intro readings t ht hp
    rcases refresh_renewed (UInt32.le_refl _) hrenew hp ht with ⟨hin, -⟩ | ⟨-, heq⟩
    · exact absurd (UInt32.lt_of_lt_of_le hin hended) (UInt32.not_lt.mpr hp.bounds.1)
    · rw [heq]
  · exact follows_of_covers j hshort hbegun hcovers
  · exact follows_of_renews j hshort hbegun hrenews

private theorem follows_iff (j : Joined mac ch w start) :
    Follows mac start ch w ↔ InStep mac start ch w :=
  ⟨fun h => h.inStep j, fun h => h.follows j⟩

end Directions

section Early

variable {mac : MacParams} {ch w : MacState} {start : UInt32}

/-- Below the wrap of the clock that is one window, or windows of a second. -/
theorem inStep_iff_of_early (j : Joined mac ch w start) (hch : Aligned mac ch)
    (hw : Aligned mac w) (he : Early mac start) :
    InStep mac start ch w ↔ w.windowStart = ch.windowStart ∨
      w.windowStart < ch.windowStart ∧ mac.windowLength = 1 := by
  have hi := j.superframe
  have hfits := j.fits
  have hchLen := j.chLength
  have hlen := j.length
  obtain ⟨hlo, hhi⟩ := inActiveWindow_iff.mp j.active
  unfold Early at he
  have hahead {e : UInt32} (h : e.toNat + mac.superframeFrequencyS.toNat < 2 ^ 32) :
      ¬ nextTimeInterval e mac.superframeFrequencyS < e := by
    intro hlt
    have hge := le_nextMultiple hi e.toNat
    rw [UInt32.lt_iff_toNat_lt, nextTimeInterval_toNat hi h] at hlt
    omega
  constructor
  · rintro (hsame | ⟨-, hwrapped, -⟩ | ⟨-, hbegun, hcovers | ⟨hfresh, -⟩⟩)
    · exact Or.inl hsame
    · exact absurd hwrapped (hahead (by omega))
    · left
      have hbegun := UInt32.le_iff_toNat_le.mp hbegun
      have hcovers := UInt32.le_iff_toNat_le.mp hcovers
      exact UInt32.toNat_inj.mp
        (eq_of_dvd_of_close hw.boundary hch.boundary (by omega) (by omega))
    · obtain ⟨hstart, hended⟩ := renewal_le.mp (UInt32.le_refl (renewal w start))
      have hbegun := UInt32.le_iff_toNat_le.mp hbegun
      have hstart := UInt32.le_iff_toNat_le.mp hstart
      have hended := UInt32.le_iff_toNat_le.mp hended
      have hsoon : (renewal w start).toNat + mac.superframeFrequencyS.toNat < 2 ^ 32 := by
        rw [renewal]
        split_ifs <;> omega
      rcases hfresh with hwrapped | ⟨hnow, hlast⟩
      · exact absurd hwrapped (hahead hsoon)
      · have hmultiple := congrArg UInt32.toNat hnow
        rw [nextTimeInterval_toNat hi hsoon] at hmultiple
        have hdvd := dvd_nextMultiple mac.superframeFrequencyS.toNat (renewal w start).toNat
        rw [hmultiple] at hdvd
        have hlast := congrArg UInt32.toNat hlast
        rw [UInt32.toNat_add] at hlast
        have hone : (1 : UInt32).toNat = 1 := rfl
        have heq : (renewal w start).toNat = ch.windowStart.toNat :=
          eq_of_dvd_of_close hdvd hch.boundary (by omega) (by omega)
        right
        exact ⟨UInt32.lt_iff_toNat_lt.mpr (by omega), UInt32.toNat_inj.mp (by omega)⟩
  · rintro (hsame | ⟨hbefore, hone⟩)
    · exact Or.inl hsame
    · have hbefore := UInt32.lt_iff_toNat_lt.mp hbefore
      have hone' : mac.windowLength.toNat = 1 := by rw [hone]; rfl
      have hslot := (slotDuration_toNat_le mac (by omega)).1
      have hstart : start = ch.windowStart := UInt32.toNat_inj.mp (by omega)
      have hended : w.windowEnd ≤ start := UInt32.le_iff_toNat_le.mpr (by omega)
      have hfresh : nextTimeInterval start mac.superframeFrequencyS = start :=
        nextTimeInterval_of_dvd hi (by rw [hstart]; exact hch.boundary)
      have hlast : start + mac.windowLength = ch.windowEnd := by
        rw [hstart]
        exact j.chCached.symm
      right; right
      refine ⟨UInt32.le_iff_toNat_le.mpr (by omega), UInt32.le_iff_toNat_le.mpr (by omega), ?_⟩
      right
      rw [renewal, if_pos hended, Renews, hfresh, ← hlast, hone]
      exact ⟨Or.inr ⟨rfl, rfl⟩, UInt32.le_refl _⟩

end Early

section Join

variable {mac : MacParams} {s : State} {now chNow : UInt32}

private theorem syncTime_of_drift (h : drift now chNow ≤ MAX_TIME_SYNC_DRIFT_S) :
    syncTime now chNow = chNow := if_pos h

private theorem Reached.cached (h : Reached mac s) : s.mac = mac ∧ Cached mac s.macState := by
  obtain ⟨node, link, first, calls, hstart, rfl⟩ := h
  have ht := started_timing hstart
  simp only [timing, Prod.mk.injEq] at ht
  obtain ⟨hinit, hmac, hstate⟩ := ht
  have hfirst : Cached mac (started node mac link first).macState := by
    rw [hstate, refreshWindow_over UInt32.zero_le]
    rfl
  exact (@runCalls_timing mac (Cached mac) (fun _ => True) (fun _ r _ hw => hw.refresh r) calls _
    ⟨hinit, hmac, hfirst⟩ fun _ _ _ _ => trivial).2

private theorem Reached.window_of_slot (h : Reached mac s) (hslot : (activeSlot now s).1 = 0) :
    Cached mac (activeSlot now s).2.macState ∧
      inActiveWindow (activeSlot now s).2.macState now = true ∧
      now.toNat < (activeSlot now s).2.macState.windowStart.toNat + mac.slotDuration.toNat := by
  obtain ⟨hmac, hcached⟩ := h.cached
  have hwindow : (activeSlot now s).2.macState = refreshWindow mac s.macState now := by
    rw [← hmac]
    rfl
  have hslot : slotOf mac (refreshWindow mac s.macState now) now = 0 := by
    rw [← hmac]
    exact hslot
  rw [hwindow]
  have hrefreshed := hcached.refresh now
  have hactive : inActiveWindow (refreshWindow mac s.macState now) now = true := by
    by_contra hout
    rw [slotOf_inactive hout] at hslot
    exact absurd hslot (by decide)
  refine ⟨hrefreshed, hactive, ?_⟩
  have hlen := hrefreshed.length hactive
  obtain ⟨hlo, hhi⟩ := inActiveWindow_iff.mp hactive
  have hpos := (slotDuration_toNat_le mac (by omega)).1
  rw [hrefreshed.slotOf_eq hactive] at hslot
  have hzero := Int.ofNat_inj.mp hslot
  have hlt := (Nat.div_eq_zero_iff_lt hpos).mp hzero
  omega

end Join

/-- After the join the follower is in step exactly if the window it had cached is that of its
clusterhead, or one of the corner cases of `InStep`. -/
theorem keepsStep_iff {mac : MacParams} (hfits : mac.windowLength ≤ mac.superframeFrequencyS)
    {clusterhead follower : State} (hch : Reached mac clusterhead) (hf : Reached mac follower)
    {chNow now : UInt32} (hchSlot : (activeSlot chNow clusterhead).1 = 0)
    (hslot : (activeSlot now follower).1 = 0)
    (hdrift : drift now chNow ≤ MAX_TIME_SYNC_DRIFT_S) :
    let ch := (activeSlot chNow clusterhead).2
    let f := (activeSlot now follower).2
    KeepsStep (syncTime now chNow) ch f ↔ InStep mac chNow ch.macState f.macState := by
  intro ch f
  obtain ⟨hchCached, hchActive, hfirst⟩ := hch.window_of_slot hchSlot
  obtain ⟨hcached, hactive, -⟩ := hf.window_of_slot hslot
  have hlen := hcached.length hactive
  obtain ⟨hlo, hhi⟩ := inActiveWindow_iff.mp hactive
  have j : Joined mac ch.macState f.macState chNow :=
    { fits := UInt32.le_iff_toNat_le.mp hfits
      positive := by omega
      chCached := hchCached
      cached := hcached
      active := hchActive
      first := hfirst
      length := hlen }
  have hchMac : ch.mac = mac := hch.cached.1
  have hfMac : f.mac = mac := hf.cached.1
  rw [syncTime_of_drift hdrift, keepsStep_iff_follows hfMac hchMac, follows_iff j]

/-- A superframe of 20 s with four slots of 3 s. -/
def shortMac : MacParams := ⟨3, 20, 4, 0, 1⟩

theorem same_window_in_step :
    KeepsStep (syncTime 41 40) (activeSlot 40 (started ⟨0, 0⟩ shortMac setupLink 40)).2
      (activeSlot 41 (started ⟨1, 0⟩ shortMac setupLink 39)).2 :=
  (@keepsStep_iff shortMac (by decide) _ _
    ⟨⟨0, 0⟩, setupLink, 40, [], by unfold Starts; decide, rfl⟩
    ⟨⟨1, 0⟩, setupLink, 39, [], by unfold Starts; decide, rfl⟩
    40 41 (by decide) (by decide) (by decide)).mpr (Or.inl (by decide))

/-- The follower is one superframe ahead when it joins; set back to the clusterhead's clock it still
waits for the window it has cached. -/
theorem late_window_out_of_step :
    let clusterhead := started ⟨0, 0⟩ shortMac setupLink 20
    let follower := started ⟨1, 0⟩ shortMac setupLink 40
    (activeSlot 20 clusterhead).1 = 0 ∧ (activeSlot 41 follower).1 = 0 ∧
      drift 41 20 ≤ MAX_TIME_SYNC_DRIFT_S ∧
      slotAfter [] 20 (activeSlot 20 clusterhead).2 = 0 ∧
      slotAfter [] 20 (activeSlot 41 follower).2 = -1 ∧
      ¬ KeepsStep (syncTime 41 20) (activeSlot 20 clusterhead).2 (activeSlot 41 follower).2 := by
  intro clusterhead follower
  refine ⟨by decide, by decide, by decide, by decide, by decide, ?_⟩
  intro h
  have hfirst := h [] [] 20 (by decide) (passes_nil (by decide)) (passes_nil (by decide))
  exact absurd hfirst (by decide)

end LoraMultihop.Multihop.TimeSync
