/- digest: The simulated radio: one descriptor on the channel file of its spreading factor. -/

import LoraMultihop.Foundation.ByteMemory
import LoraMultihop.Foundation.Descriptors

set_option autoImplicit false
set_option relaxedAutoImplicit false

namespace LoraMultihop.Radio.LoraRadio

open LoraMultihop.Foundation.ByteMemory (Bytes)
open LoraMultihop.Foundation.Descriptors

inductive RC
  | okay | alreadyInit | notInit | initFailed | deinitFailed | setFrequencyFailed | sdActive
  | failedToDeinitSd | failedToRestoreSd | sendFailed | recvFailed | timedOut
  deriving DecidableEq

/-- The values of `SF` are 6 to 12, but a cast from `uint8_t` can give it any other. -/
abbrev SF := UInt8

def SF.Default : SF := 6

/-- The path behind `NEXUS_ROOT`; for other values the program exits. -/
def sfString : SF → Option String
  | 6 => some "/lora_sf6/channel"
  | 7 => some "/lora_sf7/channel"
  | 8 => some "/lora_sf8/channel"
  | 9 => some "/lora_sf9/channel"
  | 10 => some "/lora_sf10/channel"
  | 11 => some "/lora_sf11/channel"
  | 12 => some "/lora_sf12/channel"
  | _ => none

/-- The open files of the process, and what has been written to each path. -/
structure Os where
  files : Table String
  air : List (String × Bytes)

/-- How a `close` of an open descriptor ends; after an error it may be open or not. -/
inductive Closing
  | closed
  | failed (stillOpen : Bool)
  deriving DecidableEq

def Os.open (opened : Bool) (path : String) (os : Os) : Int × Os :=
  if opened then (os.files.fresh, { os with files := os.files.insert path }) else (-1, os)

def Os.path (fd : Int) (os : Os) : Option String :=
  if fd < 0 then none else os.files.lookup fd.toNat

def Os.close (closing : Closing) (fd : Int) (os : Os) : Int × Os :=
  match os.path fd with
  | none => (-1, os)
  | some _ =>
      let erased := { os with files := os.files.erase fd.toNat }
      match closing with
      | .closed => (0, erased)
      | .failed stillOpen => (-1, if stillOpen then os else erased)

/-- A `write` takes some of the bytes or fails. -/
def Os.write (taken : Option Nat) (fd : Int) (buf : Bytes) (os : Os) : Int × Os :=
  match os.path fd with
  | none => (-1, os)
  | some path =>
      match taken with
      | none => (-1, os)
      | some n => ((buf.take n).length, { os with air := os.air ++ [(path, buf.take n)] })

/-- A `read` of at most `len` bytes; an empty result stands for none and for an error. -/
def Os.read (ready : Bytes) (fd : Int) (len : UInt8) (os : Os) : Bytes :=
  match os.path fd with
  | some _ => ready.take len.toNat
  | none => []

/-- The static variables, with the process they are part of. -/
structure State where
  initialized : Bool
  rf95 : Int
  spread : SF
  os : Os

def State.boot (os : Os) : State := ⟨false, 0, SF.Default, os⟩

/-- Why a call has not returned. -/
inductive Stop
  | exited | waiting
  deriving DecidableEq

def init (opened : Bool) (s : State) : Except Stop (RC × State) :=
  match sfString s.spread with
  | none => .error .exited
  | some path =>
      let (fd, os) := s.os.open opened path
      let s := { s with rf95 := fd, os := os }
      if fd = -1 then .ok (.initFailed, s) else .ok (.okay, { s with initialized := true })

def deinit (closing : Closing) (s : State) : RC × State :=
  if s.initialized = false then (.notInit, s)
  else
    let (res, os) := s.os.close closing s.rf95
    let s := { s with os := os }
    if res = -1 then (.deinitFailed, s) else (.okay, { s with initialized := false })

def activate (opened : Bool) (s : State) : Except Stop (RC × State) :=
  if s.initialized = false then init opened s else .ok (.okay, s)

def send (opened : Bool) (taken : Option Nat) (buf : Bytes) (s : State) :
    Except Stop (RC × State) := do
  let (rc, s) ← activate opened s
  let (nwritten, os) := s.os.write taken s.rf95 buf
  let s := { s with os := os }
  if nwritten < 0 ∨ nwritten ≠ buf.length then return (.sendFailed, s) else return (rc, s)

/-- One turn of the loop of `wait_recv`: what there is to read, and `millis()` after it. -/
structure Poll where
  ready : Bytes
  millis : UInt64

/-- The loop of `wait_recv`, on the bytes that each `read` gives. -/
def pollLoop (endMs : UInt32) : List (Bytes × UInt64) → Except Stop (RC × Bytes)
  | [] => .error .waiting
  | (bytes, millis) :: polls =>
      if bytes ≠ [] then .ok (.okay, bytes)
      else if millis < endMs.toUInt64 then pollLoop endMs polls
      else .ok (.timedOut, [])

/-- `uint32_t end_ms`: the clock of the simulation has 64 bits, the deadline keeps 32 of them. -/
def deadline (startMs : UInt64) (timeoutMs : UInt32) : UInt32 :=
  (startMs + timeoutMs.toUInt64).toUInt32

def waitRecv (opened : Bool) (startMs : UInt64) (polls : List Poll) (len : UInt8)
    (timeoutMs : UInt32) (s : State) : Except Stop (RC × Bytes × State) := do
  let (rc, s) ← activate opened s
  if rc ≠ .okay then return (rc, [], s)
  let (rc, bytes) ← pollLoop (deadline startMs timeoutMs)
    (polls.map fun p => (s.os.read p.ready s.rf95 len, p.millis))
  return (rc, bytes, s)

def setSpreadingFactor (closing : Closing) (opened : Bool) (sf : SF) (s : State) :
    Except Stop (RC × State) :=
  let s := if s.initialized = true then (deinit closing s).2 else s
  init opened { s with spread := sf }

section Invariant

/-- The spreading factor is one of the seven, and the descriptor of an initialized radio is on the
channel of that spreading factor unless the last `open` failed. -/
structure Tuned (s : State) : Prop where
  factor : (sfString s.spread).isSome
  channel : s.initialized = true → s.rf95 = -1 ∨ s.os.path s.rf95 = sfString s.spread

variable (opened : Bool) {closing : Closing} {s : State}

private theorem path_fresh (path : String) (os : Os) :
    Os.path os.files.fresh { os with files := os.files.insert path } = some path := by
  rw [Os.path, if_neg (by omega), Int.toNat_natCast, Table.lookup_insert, if_pos rfl]

private theorem init_cases {path : String} (hpath : sfString s.spread = some path) :
    init opened s = .ok (.okay, { s with
        initialized := true
        rf95 := s.os.files.fresh
        os := { s.os with files := s.os.files.insert path } }) ∧ opened = true ∨
      init opened s = .ok (.initFailed, { s with rf95 := -1 }) ∧ opened = false := by
  rw [init, hpath]
  dsimp only
  rw [Os.open]
  cases opened with
  | true =>
      rw [if_pos rfl]
      dsimp only
      rw [if_neg (by omega)]
      exact Or.inl ⟨rfl, rfl⟩
  | false =>
      rw [if_neg Bool.false_ne_true]
      exact Or.inr ⟨rfl, rfl⟩

theorem init_tuned (hfactor : (sfString s.spread).isSome) :
    ∃ rc s', init opened s = .ok (rc, s') ∧ Tuned s' ∧ s'.spread = s.spread ∧
      s'.os.air = s.os.air ∧ (rc = .okay ↔ opened = true) := by
  obtain ⟨path, hpath⟩ := Option.isSome_iff_exists.mp hfactor
  rcases init_cases opened hpath with ⟨heq, hopened⟩ | ⟨heq, hopened⟩
  · refine ⟨_, _, heq, ⟨hfactor, fun _ => Or.inr ?_⟩, rfl, rfl, by simp [hopened]⟩
    exact (path_fresh path s.os).trans hpath.symm
  · exact ⟨_, _, heq, ⟨hfactor, fun _ => Or.inl rfl⟩, rfl, rfl, by simp [hopened]⟩

private theorem activate_tuned (h : Tuned s) :
    ∃ rc s', activate opened s = .ok (rc, s') ∧ Tuned s' ∧ s'.spread = s.spread ∧
      s'.os.air = s.os.air ∧
        (s'.rf95 = -1 ∨ rc = .okay ∧ s'.os.path s'.rf95 = sfString s.spread) := by
  rw [activate]
  split_ifs with hi
  · obtain ⟨path, hpath⟩ := Option.isSome_iff_exists.mp h.factor
    rcases init_cases opened hpath with ⟨heq, -⟩ | ⟨heq, -⟩
    · have hnew : Os.path s.os.files.fresh { s.os with files := s.os.files.insert path } =
          sfString s.spread := (path_fresh path s.os).trans hpath.symm
      exact ⟨_, _, heq, ⟨h.factor, fun _ => Or.inr hnew⟩, rfl, rfl, Or.inr ⟨rfl, hnew⟩⟩
    · exact ⟨_, _, heq, ⟨h.factor, fun _ => Or.inl rfl⟩, rfl, rfl, Or.inl rfl⟩
  · have hchannel := h.channel (by simpa using hi)
    exact ⟨_, _, rfl, h, rfl, rfl, hchannel.imp_right fun hpath => ⟨rfl, hpath⟩⟩

private theorem path_neg_one (os : Os) : os.path (-1) = none := rfl

private theorem write_closed {os : Os} {fd : Int} (h : os.path fd = none) (taken : Option Nat)
    (buf : Bytes) : os.write taken fd buf = (-1, os) := by
  rw [Os.write, h]

private theorem write_failed (os : Os) (fd : Int) (buf : Bytes) :
    os.write none fd buf = (-1, os) := by
  rw [Os.write]
  cases os.path fd <;> rfl

private theorem write_some {os : Os} {fd : Int} {path : String} (h : os.path fd = some path)
    (n : Nat) (buf : Bytes) : os.write (some n) fd buf =
      (((buf.take n).length : Int), { os with air := os.air ++ [(path, buf.take n)] }) := by
  rw [Os.write, h]

theorem send_tuned (taken : Option Nat) (buf : Bytes) (h : Tuned s) :
    ∃ rc s', send opened taken buf s = .ok (rc, s') ∧ Tuned s' ∧ s'.spread = s.spread ∧
      (s'.os.air = s.os.air ∧ rc ≠ .okay ∨
        ∃ path n, sfString s.spread = some path ∧
          s'.os.air = s.os.air ++ [(path, buf.take n)] ∧ (rc = .okay ↔ buf.take n = buf)) := by
  obtain ⟨rc, s₁, heq, htuned, hspread, hair, hfd⟩ := activate_tuned opened h
  rw [send, heq]
  dsimp only [bind, Except.bind, pure, Except.pure]
  have hkept (os : Os) (hfiles : os.files = s₁.os.files) : Tuned { s₁ with os := os } := by
    refine ⟨htuned.factor, fun hi => (htuned.channel hi).imp_right fun hpath => ?_⟩
    rw [← hpath, Os.path, Os.path, hfiles]
  rcases hfd with hneg | ⟨hokay, hpath⟩
  · rw [write_closed (by rw [hneg, path_neg_one])]
    dsimp only
    rw [if_pos (Or.inl (by decide))]
    exact ⟨_, _, rfl, htuned, hspread, Or.inl ⟨hair, by simp⟩⟩
  · cases taken with
    | none =>
        rw [write_failed]
        dsimp only
        rw [if_pos (Or.inl (by decide))]
        exact ⟨_, _, rfl, htuned, hspread, Or.inl ⟨hair, by simp⟩⟩
    | some n =>
        obtain ⟨path, hsome⟩ := Option.isSome_iff_exists.mp h.factor
        rw [write_some (hpath.trans hsome)]
        dsimp only
        split_ifs with hfew
        · refine ⟨_, _, rfl, hkept _ rfl, hspread, Or.inr ⟨path, n, hsome, by rw [hair], ?_⟩⟩
          refine ⟨fun hrc => absurd hrc (by simp), fun hwhole => ?_⟩
          rw [hwhole] at hfew
          omega
        · refine ⟨_, _, rfl, hkept _ rfl, hspread, Or.inr ⟨path, n, hsome, by rw [hair], ?_⟩⟩
          refine ⟨fun _ => ?_, fun _ => hokay⟩
          rw [List.length_take] at hfew
          apply List.take_of_length_le
          omega

private theorem pollLoop_cases (endMs : UInt32) (polls : List (Bytes × UInt64)) :
    pollLoop endMs polls = .error .waiting ∨ pollLoop endMs polls = .ok (.timedOut, []) ∨
      ∃ p ∈ polls, p.1 ≠ [] ∧ pollLoop endMs polls = .ok (.okay, p.1) := by
  induction polls with
  | nil => exact Or.inl rfl
  | cons p polls ih =>
      obtain ⟨bytes, millis⟩ := p
      rw [pollLoop]
      split_ifs with hbytes
      · exact Or.inr (Or.inr ⟨_, List.mem_cons_self, hbytes, rfl⟩)
      · refine ih.imp_right (Or.imp_right ?_)
        rintro ⟨p, hp, hne, heq⟩
        exact ⟨p, List.mem_cons_of_mem _ hp, hne, heq⟩
      · exact Or.inr (Or.inl rfl)

theorem waitRecv_tuned (startMs : UInt64) (polls : List Poll) (len : UInt8) (timeoutMs : UInt32)
    (h : Tuned s) :
    waitRecv opened startMs polls len timeoutMs s = .error .waiting ∨
      ∃ rc bytes s', waitRecv opened startMs polls len timeoutMs s = .ok (rc, bytes, s') ∧
        Tuned s' ∧ s'.spread = s.spread ∧ s'.os.air = s.os.air ∧
          (rc = .okay → s'.os.path s'.rf95 = sfString s.spread ∧ bytes.length ≤ len.toNat) := by
  obtain ⟨rc, s₁, heq, htuned, hspread, hair, hfd⟩ := activate_tuned opened h
  rw [waitRecv, heq]
  dsimp only [bind, Except.bind, pure, Except.pure]
  split_ifs with hrc
  · exact Or.inr ⟨_, _, _, rfl, htuned, hspread, hair, fun hok => absurd hok hrc⟩
  · rcases pollLoop_cases (deadline startMs timeoutMs)
      (polls.map fun p => (s₁.os.read p.ready s₁.rf95 len, p.millis)) with hw | hto | hgot
    · rw [hw]
      exact Or.inl rfl
    · rw [hto]
      exact Or.inr ⟨_, _, _, rfl, htuned, hspread, hair, fun hok => absurd hok (by simp)⟩
    · obtain ⟨q, hq, hne, heq⟩ := hgot
      obtain ⟨p, -, rfl⟩ := List.mem_map.mp hq
      rw [heq]
      refine Or.inr ⟨_, _, _, rfl, htuned, hspread, hair, fun _ => ?_⟩
      rcases hfd with hneg | ⟨-, hpath⟩
      · rw [Os.read, hneg, path_neg_one] at hne
        exact absurd rfl hne
      · refine ⟨hpath, ?_⟩
        obtain ⟨path, hsome⟩ := Option.isSome_iff_exists.mp h.factor
        rw [Os.read, hpath, hsome]
        exact List.length_take_le _ _

private theorem deinit_kept (closing : Closing) (s : State) :
    (deinit closing s).2.os.air = s.os.air ∧ (deinit closing s).2.rf95 = s.rf95 := by
  rw [deinit]
  split_ifs
  · exact ⟨rfl, rfl⟩
  · dsimp only
    rw [Os.close]
    cases s.os.path s.rf95 with
    | none => exact ⟨rfl, rfl⟩
    | some path =>
        cases closing with
        | closed => exact ⟨rfl, rfl⟩
        | failed stillOpen => cases stillOpen <;> exact ⟨rfl, rfl⟩

theorem setSpreadingFactor_tuned (closing : Closing) {sf : SF} (hsf : (sfString sf).isSome)
    (s : State) :
    ∃ rc s', setSpreadingFactor closing opened sf s = .ok (rc, s') ∧ Tuned s' ∧ s'.spread = sf ∧
      s'.os.air = s.os.air := by
  have hair : (if s.initialized = true then (deinit closing s).2 else s).os.air = s.os.air := by
    split_ifs
    · exact (deinit_kept closing s).1
    · rfl
  have hinit : (sfString { (if s.initialized = true then (deinit closing s).2 else s) with
      spread := sf }.spread).isSome := hsf
  obtain ⟨rc, s', heq, htuned, hspread, hkept, -⟩ := init_tuned opened hinit
  exact ⟨rc, s', heq, htuned, hspread, hkept.trans hair⟩

end Invariant

section Leaks

/-- The descriptors that the radio has to itself while it is initialized. -/
def held (s : State) : Nat := if s.initialized = true ∧ s.rf95 ≠ -1 then 1 else 0

/-- The closes that fail, of those that a change of the spreading factor asks for. -/
def failures : Closing → Nat
  | .closed => 0
  | .failed _ => 1

variable {opened : Bool} {closing : Closing} {s s' : State} {rc : RC} {base : Nat}

theorem init_size (h : init opened s = .ok (rc, s')) (hsize : s.os.files.size ≤ base) :
    s'.os.files.size ≤ base + held s' := by
  cases hpath : sfString s.spread with
  | none =>
      rw [init, hpath] at h
      exact absurd h (by simp)
  | some path =>
      rcases init_cases opened hpath with ⟨heq, -⟩ | ⟨heq, -⟩
      · rw [heq] at h
        obtain ⟨-, rfl⟩ := Prod.mk.inj (Except.ok.inj h)
        rw [held, if_pos ⟨rfl, by dsimp only; omega⟩]
        exact Nat.succ_le_succ hsize
      · rw [heq] at h
        obtain ⟨-, rfl⟩ := Prod.mk.inj (Except.ok.inj h)
        exact hsize.trans (Nat.le_add_right _ _)

private theorem activate_size (h : activate opened s = .ok (rc, s'))
    (hsize : s.os.files.size ≤ base + held s) : s'.os.files.size ≤ base + held s' := by
  rw [activate] at h
  split_ifs at h with hi
  · rw [held, if_neg (by simp [hi])] at hsize
    exact init_size h hsize
  · obtain ⟨-, rfl⟩ := Prod.mk.inj (Except.ok.inj h)
    exact hsize

private theorem deinit_size (h : Tuned s) (hi : s.initialized = true)
    (hsize : s.os.files.size ≤ base + held s) :
    (deinit closing s).2.os.files.size ≤ base + failures closing := by
  have hheld : held s ≤ 1 := by
    rw [held]
    split_ifs <;> omega
  rw [deinit, if_neg (by simp [hi])]
  dsimp only
  rw [Os.close]
  rcases h.channel hi with hneg | hpath
  · have hnone : held s = 0 := if_neg fun hboth => hboth.2 hneg
    rw [hneg, path_neg_one]
    change s.os.files.size ≤ base + failures closing
    omega
  · obtain ⟨path, hsome⟩ := Option.isSome_iff_exists.mp h.factor
    rw [hpath, hsome]
    rw [hsome, Os.path] at hpath
    split_ifs at hpath
    have herase := Table.size_erase hpath
    cases closing with
    | closed =>
        change (s.os.files.erase s.rf95.toNat).size ≤ base + 0
        omega
    | failed stillOpen =>
        cases stillOpen with
        | true =>
            change s.os.files.size ≤ base + 1
            omega
        | false =>
            change (s.os.files.erase s.rf95.toNat).size ≤ base + 1
            omega

/-- What has returned has returned from its first step. -/
theorem ok_of_bind {ε α β : Type} {x : Except ε α} {f : α → Except ε β} {b : β}
    (h : (x >>= f) = .ok b) : ∃ a, x = .ok a ∧ f a = .ok b := by
  cases x with
  | error e => exact absurd h (by simp [bind, Except.bind])
  | ok a => exact ⟨a, rfl, h⟩

theorem setSpreadingFactor_size {sf : SF} (h : Tuned s)
    (heq : setSpreadingFactor closing opened sf s = .ok (rc, s'))
    (hsize : s.os.files.size ≤ base + held s) :
    s'.os.files.size ≤ base + failures closing + held s' := by
  rw [setSpreadingFactor] at heq
  apply init_size heq
  split_ifs with hi
  · exact deinit_size h hi hsize
  · rw [held, if_neg (by simp [hi])] at hsize
    exact hsize.trans (Nat.le_add_right _ _)

theorem send_size {taken : Option Nat} {buf : Bytes}
    (h : send opened taken buf s = .ok (rc, s')) (hsize : s.os.files.size ≤ base + held s) :
    s'.os.files.size ≤ base + held s' := by
  have hwrite (fd : Int) (os : Os) : (os.write taken fd buf).2.files = os.files := by
    rw [Os.write]
    cases os.path fd with
    | none => rfl
    | some path => cases taken <;> rfl
  rw [send] at h
  obtain ⟨⟨rc₁, s₁⟩, hact, h⟩ := ok_of_bind h
  have hsize₁ := activate_size hact hsize
  dsimp only [pure, Except.pure] at h
  split_ifs at h
  · obtain ⟨-, rfl⟩ := Prod.mk.inj (Except.ok.inj h)
    dsimp only
    rwa [hwrite]
  · obtain ⟨-, rfl⟩ := Prod.mk.inj (Except.ok.inj h)
    dsimp only
    rwa [hwrite]

theorem waitRecv_size {startMs : UInt64} {polls : List Poll} {len : UInt8} {timeoutMs : UInt32}
    {bytes : Bytes} (h : waitRecv opened startMs polls len timeoutMs s = .ok (rc, bytes, s'))
    (hsize : s.os.files.size ≤ base + held s) : s'.os.files.size ≤ base + held s' := by
  rw [waitRecv] at h
  obtain ⟨⟨rc₁, s₁⟩, hact, h⟩ := ok_of_bind h
  have hsize₁ := activate_size hact hsize
  dsimp only [bind, Except.bind, pure, Except.pure] at h
  split_ifs at h
  · obtain ⟨-, heq⟩ := Prod.mk.inj (Except.ok.inj h)
    obtain ⟨-, rfl⟩ := Prod.mk.inj heq
    exact hsize₁
  · split at h
    · exact absurd h (by simp)
    · obtain ⟨-, heq⟩ := Prod.mk.inj (Except.ok.inj h)
      obtain ⟨-, rfl⟩ := Prod.mk.inj heq
      exact hsize₁

end Leaks

section Waiting

/-- The polls of a wait that finds nothing to read, by the milliseconds since its start. -/
def emptyPolls (startMs : UInt64) (elapsed : List Nat) : List Poll :=
  elapsed.map fun e => ⟨[], startMs + UInt64.ofNat e⟩

private theorem pollLoop_empty (endMs : UInt32) (readings : List UInt64) :
    pollLoop endMs (readings.map fun r => ([], r)) = .error .waiting ∧
        (∀ r ∈ readings, r < endMs.toUInt64) ∨
      pollLoop endMs (readings.map fun r => ([], r)) = .ok (.timedOut, []) ∧
        ∃ r ∈ readings, endMs.toUInt64 ≤ r := by
  induction readings with
  | nil => exact Or.inl ⟨rfl, by simp⟩
  | cons r readings ih =>
      rw [List.map_cons, pollLoop, if_neg (by simp)]
      split_ifs with hr
      · refine ih.imp (And.imp_right ?_) (And.imp_right ?_)
        · intro h
          exact List.forall_mem_cons.mpr ⟨hr, h⟩
        · rintro ⟨r', hr', hle⟩
          exact ⟨r', List.mem_cons_of_mem _ hr', hle⟩
      · exact Or.inr ⟨rfl, r, List.mem_cons_self, UInt64.not_lt.mp hr⟩

private theorem before_deadline_iff {startMs : UInt64} {timeoutMs : UInt32} {e : Nat}
    (hclock : startMs.toNat + e < UInt64.size) :
    startMs + UInt64.ofNat e < (deadline startMs timeoutMs).toUInt64 ↔
      startMs.toNat + timeoutMs.toNat < UInt32.size ∧ e < timeoutMs.toNat := by
  have hstart := startMs.toNat_lt
  have htimeout := timeoutMs.toNat_lt
  have hsize : UInt64.size = 18446744073709551616 := rfl
  have hsize' : UInt32.size = 4294967296 := rfl
  rw [deadline, UInt64.lt_iff_toNat_lt, UInt32.toNat_toUInt64, UInt64.toNat_toUInt32,
    UInt64.toNat_add, UInt64.toNat_add, UInt32.toNat_toUInt64, UInt64.toNat_ofNat']
  omega

/-- While `millis()` itself does not wrap, a wait that hears nothing goes on exactly as long as its
timeout has not passed; but where its deadline does not fit into 32 bits, its first empty read ends
it. -/
theorem wait_goes_on_iff {opened : Bool} {s : State} (hactive : s.initialized = true)
    (startMs : UInt64) (timeoutMs : UInt32) (len : UInt8) {elapsed : List Nat}
    (hclock : ∀ e ∈ elapsed, startMs.toNat + e < UInt64.size) :
    (waitRecv opened startMs (emptyPolls startMs elapsed) len timeoutMs s = .error .waiting ↔
        elapsed = [] ∨
          startMs.toNat + timeoutMs.toNat < UInt32.size ∧ ∀ e ∈ elapsed, e < timeoutMs.toNat) ∧
      (waitRecv opened startMs (emptyPolls startMs elapsed) len timeoutMs s ≠ .error .waiting →
        waitRecv opened startMs (emptyPolls startMs elapsed) len timeoutMs s =
          .ok (.timedOut, [], s)) := by
  have hread (fd : Int) : s.os.read [] fd len = [] := by
    rw [Os.read]
    cases s.os.path fd <;> simp
  have hwait : waitRecv opened startMs (emptyPolls startMs elapsed) len timeoutMs s =
      (pollLoop (deadline startMs timeoutMs)
        ((elapsed.map fun e => startMs + UInt64.ofNat e).map fun r => ([], r))).map
          fun r => (r.1, r.2, s) := by
    rw [waitRecv, activate, if_neg (by simp [hactive])]
    dsimp only [bind, Except.bind, pure, Except.pure]
    rw [if_neg (by simp), emptyPolls, List.map_map, List.map_map]
    simp only [Function.comp_def, hread]
    cases pollLoop (deadline startMs timeoutMs)
      (elapsed.map fun e => (([] : Bytes), startMs + UInt64.ofNat e)) <;> rfl
  have hreading (e : Nat) (he : e ∈ elapsed) :=
    @before_deadline_iff startMs timeoutMs e (hclock e he)
  rw [hwait]
  rcases pollLoop_empty (deadline startMs timeoutMs)
    (elapsed.map fun e => startMs + UInt64.ofNat e) with ⟨heq, hall⟩ | ⟨heq, r, hr, hle⟩
  · rw [heq]
    refine ⟨⟨fun _ => ?_, fun _ => rfl⟩, fun hne => absurd rfl hne⟩
    by_cases hnone : elapsed = []
    · exact Or.inl hnone
    · obtain ⟨e, he⟩ := List.exists_mem_of_ne_nil elapsed hnone
      refine Or.inr ⟨((hreading e he).mp (hall _ (List.mem_map_of_mem he))).1, fun e' he' => ?_⟩
      exact ((hreading e' he').mp (hall _ (List.mem_map_of_mem he'))).2
  · obtain ⟨e, he, rfl⟩ := List.mem_map.mp hr
    rw [heq]
    refine ⟨⟨fun h => absurd h (by simp [Except.map]), ?_⟩, fun _ => rfl⟩
    rintro (rfl | ⟨hfits, hearly⟩)
    · exact absurd he List.not_mem_nil
    · have hlt := (hreading e he).mpr ⟨hfits, hearly e he⟩
      exact absurd hlt (UInt64.not_lt.mpr hle)

def unopened : State := ⟨true, -1, SF.Default, ⟨⟨[], by simp⟩, []⟩⟩

/-- From 2^32 milliseconds on, the first empty read ends a wait of 200. -/
theorem late_wait_ends :
    waitRecv true 4294967296 (emptyPolls 4294967296 [50]) 255 200 unopened =
      .ok (.timedOut, [], unopened) := by
  obtain ⟨hiff, hends⟩ := @wait_goes_on_iff true unopened rfl 4294967296 200 255 [50] (by decide)
  apply hends
  intro hwaiting
  rcases hiff.mp hwaiting with hnone | ⟨hfits, -⟩
  · exact absurd hnone (by simp)
  · exact absurd hfits (by decide)

end Waiting

end LoraMultihop.Radio.LoraRadio
