/- digest: The main loop of the TDMA node, and when it transmits once in each of its slots. -/

import LoraMultihop.Foundation.Runs

set_option autoImplicit false
set_option relaxedAutoImplicit false

namespace LoraMultihop.Tdma.Loop

open LoraMultihop.Foundation.Runs (Along foldl_iff_along foldl_keeps rel_last)

def SLOT_SECONDS : Nat := 2

def EPOCH_S : UInt32 := 1767225600

/-- `SUPERFRAME_SECONDS` for a given `NODE_COUNT`. -/
def superframeSeconds (nodeCount : Nat) : Nat := nodeCount * SLOT_SECONDS

def slotIndex (nodeCount : Nat) (nowS : UInt32) : UInt32 :=
  let offset := (nowS - EPOCH_S).toNat % superframeSeconds nodeCount
  UInt32.ofNat (offset / SLOT_SECONDS)

def nextSlotBoundary (nowS : UInt32) : UInt32 :=
  let elapsed := nowS - EPOCH_S
  let currentSlotStart := elapsed / 2 * 2
  EPOCH_S + currentSlotStart + 2

/-- Which call of `time::now()` comes next: the one at the top of the loop, the one that waits for
the end of the slot, or the one for the line about a packet received. -/
inductive Place
  | top
  | waiting (boundary : UInt32)
  | logging
  deriving DecidableEq

/-- A reading of the clock; at the top of the loop also whether `wait_recv` would bring a packet. -/
structure Reading where
  now : UInt32
  heard : Bool

/-- The locals of `main`, with the readings at the top of the loop and those that transmissions
started from. -/
structure State where
  place : Place
  lastSlotSeen : UInt32
  transmittedThisSlot : Bool
  tops : List UInt32
  sent : List UInt32

def start : State := ⟨.top, 0xFFFFFFFF, false, [], []⟩

/-- The start of the loop body: a new slot resets the flag. -/
def see (slot now : UInt32) (s : State) : State :=
  let s := { s with tops := s.tops ++ [now] }
  if slot ≠ s.lastSlotSeen then { s with lastSlotSeen := slot, transmittedThisSlot := false } else s

def transmit (now : UInt32) (s : State) : State :=
  if s.transmittedThisSlot then s
  else { s with transmittedThisSlot := true, sent := s.sent ++ [now] }

def step (nodeCount : Nat) (deviceId : UInt8) (s : State) (r : Reading) : State :=
  match s.place with
  | .top =>
      let slot := slotIndex nodeCount r.now
      let s := see slot r.now s
      if slot = deviceId.toUInt32 then
        { transmit r.now s with place := .waiting (nextSlotBoundary r.now) }
      else if r.heard then { s with place := .logging } else s
  | .waiting boundary => if r.now < boundary then s else { s with place := .top }
  | .logging => { s with place := .top }

def run (nodeCount : Nat) (deviceId : UInt8) (readings : List Reading) : State :=
  readings.foldl (step nodeCount deviceId) start

/-- The reading falls into the node's slot of superframe `k`. -/
def Occurrence (nodeCount : Nat) (deviceId : UInt8) (k : Nat) (t : UInt32) : Prop :=
  EPOCH_S.toNat + k * superframeSeconds nodeCount + deviceId.toNat * SLOT_SECONDS ≤ t.toNat ∧
    t.toNat < EPOCH_S.toNat + k * superframeSeconds nodeCount +
      deviceId.toNat * SLOT_SECONDS + SLOT_SECONDS

instance (nodeCount : Nat) (deviceId : UInt8) (k : Nat) :
    DecidablePred (Occurrence nodeCount deviceId k) := fun _ => inferInstanceAs (Decidable (_ ∧ _))

/-- Each of the node's slots that the top of the loop has seen has one transmission. -/
def Once (nodeCount : Nat) (deviceId : UInt8) (s : State) : Prop :=
  ∀ k, (∃ t ∈ s.tops, Occurrence nodeCount deviceId k t) →
    s.sent.countP (fun t => decide (Occurrence nodeCount deviceId k t)) = 1

/-- The node transmits in its own slots only, and once in each that the top of the loop sees. -/
structure OncePerSlot (nodeCount : Nat) (deviceId : UInt8) (s : State) : Prop where
  own : ∀ t ∈ s.sent, ∃ k, Occurrence nodeCount deviceId k t
  once : Once nodeCount deviceId s

def superframe (nodeCount : Nat) (nowS : UInt32) : Nat :=
  (nowS - EPOCH_S).toNat / superframeSeconds nodeCount

/-- The reading at the top of the loop and the one before it are not in the node's slots of two
superframes. -/
def SameOccurrence (nodeCount : Nat) (deviceId : UInt8) (s : State) (r : Reading) : Prop :=
  s.place = .top → ∀ t ∈ s.tops.getLast?, slotIndex nodeCount t = deviceId.toUInt32 →
    slotIndex nodeCount r.now = deviceId.toUInt32 →
      superframe nodeCount t = superframe nodeCount r.now

instance (nodeCount : Nat) (deviceId : UInt8) (s : State) (r : Reading) :
    Decidable (SameOccurrence nodeCount deviceId s r) :=
  -- by the last reading alone, not by a search through all readings
  have : Decidable (∀ t ∈ s.tops.getLast?, slotIndex nodeCount t = deviceId.toUInt32 →
      slotIndex nodeCount r.now = deviceId.toUInt32 →
        superframe nodeCount t = superframe nodeCount r.now) := Option.decidableForallMem _
  inferInstanceAs (Decidable (_ → _))

/-- What the loop knows of the readings at its top. -/
structure Watching (nodeCount : Nat) (deviceId : UInt8) (s : State) : Prop where
  last : ∀ t ∈ s.tops.getLast?, s.lastSlotSeen = slotIndex nodeCount t ∧
    (slotIndex nodeCount t = deviceId.toUInt32 → s.transmittedThisSlot = true)
  fresh : s.tops = [] → s.transmittedThisSlot = false
  sent : ∀ t ∈ s.sent, t ∈ s.tops ∧ slotIndex nodeCount t = deviceId.toUInt32

section Slots

variable {nodeCount : Nat} {deviceId : UInt8} {t : UInt32}

private theorem superframeSeconds_room (hid : deviceId.toNat < nodeCount) :
    deviceId.toNat * SLOT_SECONDS + SLOT_SECONDS ≤ superframeSeconds nodeCount := by
  rw [← Nat.succ_mul]
  exact Nat.mul_le_mul_right SLOT_SECONDS hid

private theorem occurrence_elapsed (hid : deviceId.toNat < nodeCount) {k : Nat}
    (h : Occurrence nodeCount deviceId k t) :
    (t.toNat - EPOCH_S.toNat) / superframeSeconds nodeCount = k ∧
      (t.toNat - EPOCH_S.toNat) % superframeSeconds nodeCount / SLOT_SECONDS =
        deviceId.toNat := by
  obtain ⟨hlow, hhigh⟩ := h
  have hroom := superframeSeconds_room hid
  obtain ⟨rest, hrest⟩ := Nat.exists_eq_add_of_le hlow
  have helapsed : t.toNat - EPOCH_S.toNat = superframeSeconds nodeCount * k +
      (deviceId.toNat * SLOT_SECONDS + rest) := by
    rw [Nat.mul_comm]
    omega
  have hlt : deviceId.toNat * SLOT_SECONDS + rest < superframeSeconds nodeCount := by omega
  have hslot : rest < SLOT_SECONDS := by omega
  rw [helapsed, Nat.mul_add_div (by omega), Nat.div_eq_of_lt hlt, Nat.mul_add_mod,
    Nat.mod_eq_of_lt hlt, Nat.mul_comm deviceId.toNat, Nat.mul_add_div (by decide),
    Nat.div_eq_of_lt hslot]
  exact ⟨rfl, rfl⟩

private theorem occurrence_unique (hid : deviceId.toNat < nodeCount) {k k' : Nat}
    (h : Occurrence nodeCount deviceId k t) (h' : Occurrence nodeCount deviceId k' t) : k = k' :=
  (occurrence_elapsed hid h).1.symm.trans (occurrence_elapsed hid h').1

private theorem occurrence_iff (hid : deviceId.toNat < nodeCount) (ht : EPOCH_S ≤ t) {k : Nat} :
    Occurrence nodeCount deviceId k t ↔
      slotIndex nodeCount t = deviceId.toUInt32 ∧ superframe nodeCount t = k := by
  have hle : EPOCH_S.toNat ≤ t.toNat := UInt32.le_iff_toNat_le.mp ht
  have helapsed : (t - EPOCH_S).toNat = t.toNat - EPOCH_S.toNat := UInt32.toNat_sub_of_le _ _ ht
  have hindex : (slotIndex nodeCount t).toNat =
      (t.toNat - EPOCH_S.toNat) % superframeSeconds nodeCount / SLOT_SECONDS := by
    rw [slotIndex, helapsed]
    apply UInt32.toNat_ofNat_of_lt'
    have hsmall := Nat.mod_le (t.toNat - EPOCH_S.toNat) (superframeSeconds nodeCount)
    have hhalf := Nat.div_le_self
      ((t.toNat - EPOCH_S.toNat) % superframeSeconds nodeCount) SLOT_SECONDS
    exact lt_of_le_of_lt (hhalf.trans (hsmall.trans (Nat.sub_le _ _))) t.toNat_lt
  rw [← UInt32.toNat_inj, hindex, UInt8.toNat_toUInt32, superframe, helapsed]
  constructor
  · intro h
    exact (occurrence_elapsed hid h).symm
  · rintro ⟨h, rfl⟩
    have hdiv := Nat.div_add_mod (t.toNat - EPOCH_S.toNat) (superframeSeconds nodeCount)
    have hslot := Nat.div_add_mod
      ((t.toNat - EPOCH_S.toNat) % superframeSeconds nodeCount) SLOT_SECONDS
    have hin := Nat.mod_lt
      ((t.toNat - EPOCH_S.toNat) % superframeSeconds nodeCount) (y := SLOT_SECONDS) (by decide)
    rw [h] at hslot
    unfold Occurrence
    rw [Nat.mul_comm _ (superframeSeconds nodeCount), Nat.mul_comm deviceId.toNat]
    omega

private theorem slotIndex_eq_iff (hid : deviceId.toNat < nodeCount) (ht : EPOCH_S ≤ t) :
    slotIndex nodeCount t = deviceId.toUInt32 ↔ ∃ k, Occurrence nodeCount deviceId k t := by
  constructor
  · intro h
    exact ⟨_, (occurrence_iff hid ht).mpr ⟨h, rfl⟩⟩
  · rintro ⟨k, h⟩
    exact ((occurrence_iff hid ht).mp h).1

end Slots

section Steps

variable {nodeCount : Nat} {deviceId : UInt8} {s : State} {r : Reading}

/-- A reading elsewhere than at the top changes nothing but the place. -/
private theorem step_elsewhere (h : s.place ≠ .top) :
    ∃ place, step nodeCount deviceId s r = { s with place := place } := by
  rw [step]
  cases hplace : s.place with
  | top => exact absurd hplace h
  | waiting boundary =>
      dsimp only
      split_ifs
      · exact ⟨.waiting boundary, by rw [← hplace]⟩
      · exact ⟨.top, rfl⟩
  | logging => exact ⟨.top, rfl⟩

/-- What a reading at the top does; it starts a transmission in the node's own slot unless the
reading before was in a slot of that index and the flag is set. -/
private theorem step_top (h : s.place = .top) :
    (step nodeCount deviceId s r).tops = s.tops ++ [r.now] ∧
      (step nodeCount deviceId s r).lastSlotSeen = slotIndex nodeCount r.now ∧
      if slotIndex nodeCount r.now = deviceId.toUInt32 then
        (step nodeCount deviceId s r).transmittedThisSlot = true ∧
          (step nodeCount deviceId s r).sent =
            if s.lastSlotSeen = deviceId.toUInt32 ∧ s.transmittedThisSlot = true then s.sent
            else s.sent ++ [r.now]
      else (step nodeCount deviceId s r).sent = s.sent := by
  rw [step, h]
  dsimp only
  by_cases hown : slotIndex nodeCount r.now = deviceId.toUInt32
  · rw [if_pos hown, if_pos hown, see, hown]
    by_cases hsame : s.lastSlotSeen = deviceId.toUInt32
    · rw [if_neg (not_not.mpr hsame.symm), transmit]
      cases hflag : s.transmittedThisSlot with
      | true => simp [hsame]
      | false => simp [hsame]
    · rw [if_pos (Ne.symm hsame), transmit]
      simp [hsame]
  · rw [if_neg hown, if_neg hown, see]
    by_cases hsame : slotIndex nodeCount r.now = s.lastSlotSeen
    · rw [if_neg (not_not.mpr hsame)]
      split_ifs <;> exact ⟨rfl, hsame.symm, rfl⟩
    · rw [if_pos hsame]
      split_ifs <;> exact ⟨rfl, rfl, rfl⟩

private theorem Watching.step (h : Watching nodeCount deviceId s) (r : Reading) :
    Watching nodeCount deviceId (Loop.step nodeCount deviceId s r) := by
  by_cases hplace : s.place = .top
  · obtain ⟨htops, hlast, hsent⟩ := @step_top nodeCount deviceId s r hplace
    refine ⟨?_, ?_, ?_⟩
    · intro t ht
      rw [htops, List.getLast?_concat, Option.mem_some_iff] at ht
      subst ht
      refine ⟨hlast, ?_⟩
      intro hown
      rw [if_pos hown] at hsent
      exact hsent.1
    · intro hnil
      rw [htops] at hnil
      exact absurd hnil (by simp)
    · have hold (t : UInt32) (ht : t ∈ s.sent) :
          t ∈ s.tops ++ [r.now] ∧ slotIndex nodeCount t = deviceId.toUInt32 :=
        ⟨List.mem_append_left _ (h.sent t ht).1, (h.sent t ht).2⟩
      intro t ht
      rw [htops]
      split_ifs at hsent with hown hflag
      · exact hold t (hsent.2 ▸ ht)
      · rw [hsent.2] at ht
        rcases List.mem_append.mp ht with ht | ht
        · exact hold t ht
        · rw [List.mem_singleton.mp ht]
          exact ⟨List.mem_append_right _ List.mem_cons_self, hown⟩
      · exact hold t (hsent ▸ ht)
  · obtain ⟨place, heq⟩ := @step_elsewhere nodeCount deviceId s r hplace
    rw [heq]
    exact ⟨h.last, h.fresh, h.sent⟩

private theorem start_watching : Watching nodeCount deviceId start where
  last t ht := absurd ht (by simp [start])
  fresh _ := rfl
  sent t ht := absurd ht List.not_mem_nil

private theorem tops_sublist (readings : List Reading) :
    (run nodeCount deviceId readings).tops.Sublist (readings.map Reading.now) := by
  induction readings using List.reverseRecOn with
  | nil => exact List.Sublist.slnil
  | append_singleton readings r ih =>
      rw [run, List.foldl_append, List.map_append]
      change (Loop.step nodeCount deviceId (run nodeCount deviceId readings) r).tops.Sublist _
      by_cases hplace : (run nodeCount deviceId readings).place = .top
      · rw [(step_top hplace).1]
        exact ih.append (List.Sublist.refl _)
      · obtain ⟨place, heq⟩ := @step_elsewhere nodeCount deviceId _ r hplace
        rw [heq]
        exact ih.trans (List.sublist_append_left _ _)

end Steps

section Once

variable {nodeCount : Nat} {deviceId : UInt8} {s : State} {r : Reading}

private theorem Occurrence.between {k : Nat} {t u v : UInt32}
    (hu : Occurrence nodeCount deviceId k u)
    (hv : Occurrence nodeCount deviceId k v) (hut : u ≤ t) (htv : t ≤ v) :
    Occurrence nodeCount deviceId k t :=
  ⟨hu.1.trans (UInt32.le_iff_toNat_le.mp hut),
    lt_of_le_of_lt (UInt32.le_iff_toNat_le.mp htv) hv.2⟩

/-- Where a reading at the top comes after those before it. -/
structure Timely (s : State) (r : Reading) : Prop where
  clock : (s.tops ++ [r.now]).Pairwise (· ≤ ·)
  epoch : ∀ t ∈ s.tops ++ [r.now], EPOCH_S ≤ t

private theorem Timely.last_le (h : Timely s r) {t : UInt32} (ht : t ∈ s.tops.getLast?) :
    t ≤ r.now :=
  (List.pairwise_append.mp h.clock).2.2 t (List.mem_of_getLast? ht) _ List.mem_cons_self

private theorem Timely.le_last (h : Timely s r) {t u : UInt32} (ht : t ∈ s.tops.getLast?)
    (hu : u ∈ s.tops) : u ≤ t :=
  rel_last UInt32.le_refl (List.pairwise_append.mp h.clock).1 ht hu

private theorem Timely.last_occurrence (h : Timely s r) {k : Nat} {t u : UInt32}
    (ht : t ∈ s.tops.getLast?) (hu : u ∈ s.tops) (hku : Occurrence nodeCount deviceId k u)
    (hk : Occurrence nodeCount deviceId k r.now) : Occurrence nodeCount deviceId k t :=
  hku.between hk (h.le_last ht hu) (h.last_le ht)

private theorem once_step_outside (hplace : s.place = .top)
    (hown : slotIndex nodeCount r.now ≠ deviceId.toUInt32)
    (hout : ∀ k, ¬ Occurrence nodeCount deviceId k r.now) :
    Once nodeCount deviceId (step nodeCount deviceId s r) ↔ Once nodeCount deviceId s := by
  obtain ⟨htops, -, hsent⟩ := @step_top nodeCount deviceId s r hplace
  rw [if_neg hown] at hsent
  have hsame (k : Nat) : (∃ t ∈ s.tops ++ [r.now], Occurrence nodeCount deviceId k t) ↔
      ∃ t ∈ s.tops, Occurrence nodeCount deviceId k t := by
    simp [hout k]
  rw [Once, htops, hsent]
  exact forall_congr' fun k => imp_congr_left (hsame k)

private theorem once_step_repeated (hid : deviceId.toNat < nodeCount)
    (h : Watching nodeCount deviceId s) (htime : Timely s r) (hplace : s.place = .top) {k k' : Nat}
    {t : UInt32} (ht : t ∈ s.tops.getLast?) (hk : Occurrence nodeCount deviceId k t)
    (hk' : Occurrence nodeCount deviceId k' r.now) :
    Once nodeCount deviceId (step nodeCount deviceId s r) ↔
      Once nodeCount deviceId s ∧ k = k' := by
  obtain ⟨htops, -, hsent⟩ := @step_top nodeCount deviceId s r hplace
  have hmem := List.mem_of_getLast? ht
  have hown : slotIndex nodeCount r.now = deviceId.toUInt32 :=
    (slotIndex_eq_iff hid (htime.epoch _ (List.mem_append_right _ List.mem_cons_self))).mpr
      ⟨k', hk'⟩
  have hprev : slotIndex nodeCount t = deviceId.toUInt32 :=
    (slotIndex_eq_iff hid (htime.epoch t (List.mem_append_left _ hmem))).mpr ⟨k, hk⟩
  obtain ⟨hslot, hflag⟩ := h.last t ht
  rw [if_pos hown, if_pos ⟨hslot.trans hprev, hflag hprev⟩] at hsent
  rw [Once, htops, hsent.2]
  constructor
  · intro honce
    refine ⟨fun j ⟨u, hu, hj⟩ => honce j ⟨u, List.mem_append_left _ hu, hj⟩, ?_⟩
    have hone := honce k' ⟨r.now, List.mem_append_right _ List.mem_cons_self, hk'⟩
    obtain ⟨x, hx, hxk⟩ := List.countP_pos_iff.mp (Nat.lt_of_lt_of_eq Nat.one_pos hone.symm)
    exact occurrence_unique hid hk
      (htime.last_occurrence ht (h.sent x hx).1 (of_decide_eq_true hxk) hk')
  · rintro ⟨honce, rfl⟩ j ⟨u, hu, hj⟩
    rcases List.mem_append.mp hu with hu | hu
    · exact honce j ⟨u, hu, hj⟩
    · rw [List.mem_singleton.mp hu] at hj
      obtain rfl := occurrence_unique hid hj hk'
      exact honce j ⟨t, hmem, hk⟩

private theorem once_step_first (hid : deviceId.toNat < nodeCount)
    (h : Watching nodeCount deviceId s) (htime : Timely s r) (hplace : s.place = .top) {k' : Nat}
    (hlast : ∀ t ∈ s.tops.getLast?, ∀ k, ¬ Occurrence nodeCount deviceId k t)
    (hk' : Occurrence nodeCount deviceId k' r.now) :
    Once nodeCount deviceId (step nodeCount deviceId s r) ↔ Once nodeCount deviceId s := by
  obtain ⟨htops, -, hsent⟩ := @step_top nodeCount deviceId s r hplace
  have hown : slotIndex nodeCount r.now = deviceId.toUInt32 :=
    (slotIndex_eq_iff hid (htime.epoch _ (List.mem_append_right _ List.mem_cons_self))).mpr
      ⟨k', hk'⟩
  have hreset : ¬ (s.lastSlotSeen = deviceId.toUInt32 ∧ s.transmittedThisSlot = true) := by
    rintro ⟨hslot, hset⟩
    cases ht : s.tops.getLast? with
    | none => exact absurd ((h.fresh (List.getLast?_eq_none_iff.mp ht)).symm.trans hset) (by simp)
    | some t =>
        have hprev := (h.last t ht).1.symm.trans hslot
        obtain ⟨k, hk⟩ := (slotIndex_eq_iff hid
          (htime.epoch t (List.mem_append_left _ (List.mem_of_getLast? ht)))).mp hprev
        exact hlast t ht k hk
  have hnew (u : UInt32) (hu : u ∈ s.tops) : ¬ Occurrence nodeCount deviceId k' u := by
    intro hku
    cases ht : s.tops.getLast? with
    | none => exact absurd (List.getLast?_eq_none_iff.mp ht ▸ hu) List.not_mem_nil
    | some t => exact hlast t ht k' (htime.last_occurrence ht hu hku hk')
  rw [if_pos hown, if_neg hreset] at hsent
  rw [Once, htops, hsent.2]
  constructor
  · rintro honce j ⟨u, hu, hj⟩
    have hother : ¬ Occurrence nodeCount deviceId j r.now :=
      fun hjr => hnew u hu (occurrence_unique hid hjr hk' ▸ hj)
    have hone := honce j ⟨u, List.mem_append_left _ hu, hj⟩
    rw [List.countP_append, List.countP_singleton] at hone
    simpa [hother] using hone
  · rintro honce j ⟨u, hu, hj⟩
    rw [List.countP_append, List.countP_singleton]
    rcases List.mem_append.mp hu with hu | hu
    · have hother : ¬ Occurrence nodeCount deviceId j r.now :=
        fun hjr => hnew u hu (occurrence_unique hid hjr hk' ▸ hj)
      simpa [hother] using honce j ⟨u, hu, hj⟩
    · rw [List.mem_singleton.mp hu] at hj
      have hnone : s.sent.countP (fun t => decide (Occurrence nodeCount deviceId j t)) = 0 := by
        apply List.countP_eq_zero.mpr
        intro x hx hjx
        apply hnew x (h.sent x hx).1
        rw [← occurrence_unique hid hj hk']
        exact of_decide_eq_true hjx
      simp [hnone, hj]

private theorem once_step_iff (hid : deviceId.toNat < nodeCount) (h : Watching nodeCount deviceId s)
    (htime : s.place = .top → Timely s r) :
    Once nodeCount deviceId (step nodeCount deviceId s r) ↔
      Once nodeCount deviceId s ∧ SameOccurrence nodeCount deviceId s r := by
  by_cases hplace : s.place = .top
  · have htime := htime hplace
    have hnow := htime.epoch r.now (List.mem_append_right _ List.mem_cons_self)
    by_cases hown : slotIndex nodeCount r.now = deviceId.toUInt32
    · obtain ⟨k', hk'⟩ := (slotIndex_eq_iff hid hnow).mp hown
      by_cases hlast : ∃ t ∈ s.tops.getLast?, ∃ k, Occurrence nodeCount deviceId k t
      · obtain ⟨t, ht, k, hk⟩ := hlast
        rw [once_step_repeated hid h htime hplace ht hk hk']
        have hprev := htime.epoch t (List.mem_append_left _ (List.mem_of_getLast? ht))
        obtain ⟨hslot, hframe⟩ := (occurrence_iff hid hprev).mp hk
        obtain ⟨-, hframe'⟩ := (occurrence_iff hid hnow).mp hk'
        refine and_congr_right fun _ => ⟨?_, ?_⟩
        · rintro hsame _ u hu _ _
          rw [Option.mem_unique hu ht, hframe, hframe', hsame]
        · intro hsame
          rw [← hframe, ← hframe']
          exact hsame hplace t ht hslot hown
      · push Not at hlast
        rw [once_step_first hid h htime hplace hlast hk']
        refine (and_iff_left ?_).symm
        intro _ t ht hslot
        have hprev := htime.epoch t (List.mem_append_left _ (List.mem_of_getLast? ht))
        obtain ⟨k, hk⟩ := (slotIndex_eq_iff hid hprev).mp hslot
        exact absurd hk (hlast t ht k)
    · have hout (k : Nat) : ¬ Occurrence nodeCount deviceId k r.now :=
        fun hk => hown ((slotIndex_eq_iff hid hnow).mpr ⟨k, hk⟩)
      rw [once_step_outside hplace hown hout]
      exact (and_iff_left fun _ t _ _ hslot => absurd hslot hown).symm
  · obtain ⟨place, heq⟩ := @step_elsewhere nodeCount deviceId s r hplace
    rw [heq]
    exact (and_iff_left fun htop => absurd htop hplace).symm

/-- The node transmits only in its own slots, and once in each that the top of its loop sees,
exactly if no two readings at the top, one after the other, are in its slots of two superframes. -/
theorem oncePerSlot_iff {nodeCount : Nat} {deviceId : UInt8} (hid : deviceId.toNat < nodeCount)
    {readings : List Reading} (hclock : readings.Pairwise fun a b => a.now ≤ b.now)
    (hepoch : ∀ r ∈ readings, EPOCH_S ≤ r.now) :
    OncePerSlot nodeCount deviceId (run nodeCount deviceId readings) ↔
      Along (step nodeCount deviceId) (SameOccurrence nodeCount deviceId) start readings := by
  have hwatching (pre : List Reading) : Watching nodeCount deviceId (run nodeCount deviceId pre) :=
    foldl_keeps (fun s r h => h.step r) start_watching pre
  have honce : Once nodeCount deviceId (run nodeCount deviceId readings) ↔
      Along (step nodeCount deviceId) (SameOccurrence nodeCount deviceId) start readings := by
    have hstart : Once nodeCount deviceId start := by
      rintro k ⟨t, ht, -⟩
      exact absurd ht List.not_mem_nil
    refine foldl_iff_along hstart ?_
    intro pre r hpre
    rw [List.foldl_append]
    apply once_step_iff hid (hwatching pre)
    intro _
    have hread : ((run nodeCount deviceId pre).tops ++ [r.now]).Sublist
        (readings.map Reading.now) := by
      have hsub := (@tops_sublist nodeCount deviceId pre).append (List.Sublist.refl [r.now])
      rw [← List.map_singleton, ← List.map_append] at hsub
      exact hsub.trans (hpre.sublist.map _)
    refine ⟨(List.pairwise_map.mpr hclock).sublist hread, ?_⟩
    intro t ht
    obtain ⟨r', hr', rfl⟩ := List.mem_map.mp (hread.subset ht)
    exact hepoch r' hr'
  rw [← honce]
  constructor
  · intro h
    exact h.once
  · intro h
    refine ⟨?_, h⟩
    intro t ht
    obtain ⟨htop, hown⟩ := (hwatching readings).sent t ht
    obtain ⟨r, hr, rfl⟩ := List.mem_map.mp ((tops_sublist readings).subset htop)
    exact (slotIndex_eq_iff hid (hepoch r hr)).mp hown

end Once

/-- A reading so many seconds after the epoch that no packet follows. -/
def quiet (seconds : UInt32) : Reading := ⟨EPOCH_S + seconds, false⟩

theorem two_superframes_served :
    let readings := [0, 2, 3, 4, 4, 6, 8].map quiet
    (run 3 1 readings).sent = [EPOCH_S + 2, EPOCH_S + 8] ∧ OncePerSlot 3 1 (run 3 1 readings) := by
  refine ⟨by decide +kernel, ?_⟩
  apply (oncePerSlot_iff (by decide) (by decide +kernel) (by decide +kernel)).mpr
  decide +kernel

/-- A single node in its second superframe, and one of three that has waited for six seconds. -/
theorem second_superframe_missed :
    let alone := run 1 0 ([0, 2, 2].map quiet)
    let delayed := run 3 1 ([2, 8, 8].map quiet)
    alone.tops = [EPOCH_S, EPOCH_S + 2] ∧ alone.sent = [EPOCH_S] ∧
      delayed.tops = [EPOCH_S + 2, EPOCH_S + 8] ∧ delayed.sent = [EPOCH_S + 2] ∧
      ¬ OncePerSlot 1 0 alone ∧ ¬ OncePerSlot 3 1 delayed := by
  intro alone delayed
  refine ⟨by decide +kernel, by decide +kernel, by decide +kernel, by decide +kernel, ?_, ?_⟩
  · intro h
    exact absurd (h.once 1 ⟨EPOCH_S + 2, by decide +kernel⟩) (by decide +kernel)
  · intro h
    exact absurd (h.once 1 ⟨EPOCH_S + 8, by decide +kernel⟩) (by decide +kernel)

end LoraMultihop.Tdma.Loop
