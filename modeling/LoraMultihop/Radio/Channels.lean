/- digest: The link layer on the simulated radio: which channel carries what it sends. -/

import LoraMultihop.Link.Windows
import LoraMultihop.Radio.LoraRadio

set_option autoImplicit false
set_option relaxedAutoImplicit false

namespace LoraMultihop.Radio.Channels

open LoraMultihop.Foundation.ByteMemory (Bytes)
open LoraMultihop.Foundation.Descriptors
open LoraMultihop.Net.Params
open LoraMultihop.Link
open LoraMultihop.Link.Layer (Call RadioOp hashCdmaCode)
open LoraMultihop.Radio.LoraRadio

structure Station where
  link : Layer.State
  radio : LoraRadio.State

/-- How the operating system and the clock answer the radio during a call. -/
structure Replies where
  closing : Closing
  opened : Bool
  taken : Option Nat
  startMs : UInt64
  polls : List Poll

/-- The end of a wait as `recv` of the link layer takes it. -/
def waited : LoraRadio.RC → Bytes → Layer.WaitRecv
  | .okay, packet => .received packet
  | .timedOut, _ => .timedOut
  | _, _ => .failed

/-- A call of the link layer with the results of the radio in place of its own; the code returned
is that of `flush` and `recv`, else `ok`. -/
def exec (r : Replies) (c : Call) (st : Station) : Except Stop (Layer.RC × Station) :=
  match c with
  | .flush now stamp _ =>
      match (Layer.flush now stamp false st.link).2.2 with
      | [.send frame] => do
          let (rc, radio) ← send r.opened r.taken frame st.radio
          let (res, link, _) := Layer.flush now stamp (rc = .okay) st.link
          return (res, ⟨link, radio⟩)
      | _ =>
          let (res, link, _) := Layer.flush now stamp false st.link
          .ok (res, ⟨link, st.radio⟩)
  | .recv now timeoutMs _ =>
      match (Layer.recv now timeoutMs .timedOut st.link).2.2 with
      | [.waitRecv len ms] => do
          let (rc, bytes, radio) ← waitRecv r.opened r.startMs r.polls len ms st.radio
          let (res, link, _) := Layer.recv now timeoutMs (waited rc bytes) st.link
          return (res, ⟨link, radio⟩)
      | _ =>
          let (res, link, _) := Layer.recv now timeoutMs .timedOut st.link
          .ok (res, ⟨link, st.radio⟩)
  | .setCdmaCode id => do
      let (_, radio) ← setSpreadingFactor r.closing r.opened (hashCdmaCode id) st.radio
      return (.ok, ⟨(Layer.setCdmaCode id st.link).1, radio⟩)
  | c => .ok (.ok, ⟨c.exec st.link, st.radio⟩)

def run : List (Replies × Call) → Station → Except Stop Station
  | [], st => .ok st
  | (r, c) :: calls, st => do
      let (_, st) ← exec r c st
      run calls st

def tunedTo (sf : SF) : List (Replies × Call) → SF
  | [] => sf
  | (_, .setCdmaCode id) :: calls => tunedTo (hashCdmaCode id) calls
  | _ :: calls => tunedTo sf calls

/-- The closes among the replies that fail when the code is changed. -/
def failedCloses : List (Replies × Call) → Nat
  | [] => 0
  | (r, .setCdmaCode _) :: calls => failures r.closing + failedCloses calls
  | _ :: calls => failedCloses calls

private theorem sfString_hash (id : UInt8) : (sfString (hashCdmaCode id)).isSome := by
  have hall : ∀ n < 256, (sfString (hashCdmaCode (UInt8.ofNat n))).isSome := by decide +kernel
  have hid := hall id.toNat id.toNat_lt
  rwa [UInt8.ofNat_toNat] at hid

section Calls

variable {r : Replies} {c : Call} {st st' : Station} {rc : Layer.RC} {base : Nat}

private theorem flush_ops (now stamp : UInt32) (s : Layer.State) :
    (∀ sent, (Layer.flush now stamp sent s).2.2 = [] ∧ (Layer.flush now stamp sent s).1 ≠ .ok) ∨
      ∃ frame, ∀ sent, (Layer.flush now stamp sent s).2.2 = [.send frame] ∧
        ((Layer.flush now stamp sent s).1 = .ok ↔ sent = true) := by
  by_cases hi : s.initialized = false
  · refine Or.inl fun sent => ?_
    rw [Layer.flush, if_pos hi]
    simp
  · by_cases hw : Mac.inActiveWindow (Layer.refreshed now s).macState now = false
    · refine Or.inl fun sent => ?_
      rw [Layer.flush, if_neg hi]
      dsimp only
      rw [if_pos hw]
      simp
    · by_cases hfilled : (Layer.fillFrameHeader stamp (Layer.refreshed now s)).1 = false
      · refine Or.inl fun sent => ?_
        rw [Layer.flush, if_neg hi]
        dsimp only
        rw [if_neg hw, Layer.sendFrame]
        dsimp only
        rw [if_pos hfilled]
        simp
      · refine Or.inr ⟨Foundation.ByteMemory.read
          (Layer.fillFrameHeader stamp (Layer.refreshed now s)).2.link.txBuf 0
          (Layer.FRAME_HEADER_SZ +
            (Layer.fillFrameHeader stamp (Layer.refreshed now s)).2.state.txMsgCount +
            (Layer.fillFrameHeader stamp (Layer.refreshed now s)).2.state.txBytesQueued),
          fun sent => ?_⟩
        rw [Layer.flush, if_neg hi]
        dsimp only
        rw [if_neg hw, Layer.sendFrame]
        dsimp only
        rw [if_neg hfilled]
        cases sent with
        | true => exact ⟨rfl, by simp⟩
        | false => exact ⟨rfl, by simp⟩

/-- What the air gets from one call, on the channel of `sf`: nothing, or a part of one frame, which
is the whole frame if and only if `flush` returns `Ok`. -/
def Emits (sf : SF) (c : Call) (rc : Layer.RC) (st st' : Station) : Prop :=
  (∃ now stamp sent, c = .flush now stamp sent ∧
    ∃ frame n path, (Layer.flush now stamp false st.link).2.2 = [.send frame] ∧
      sfString sf = some path ∧
        st'.radio.os.air = st.radio.os.air ++ [(path, frame.take n)] ∧
          (rc = .ok ↔ frame.take n = frame)) ∨
    st'.radio.os.air = st.radio.os.air ∧ ((∃ now stamp sent, c = .flush now stamp sent) → rc ≠ .ok)

/-- A frame that `recv` accepts has been read from the channel of `sf`. -/
def Listens (sf : SF) (c : Call) (rc : Layer.RC) (st' : Station) : Prop :=
  (∃ now timeoutMs radio, c = .recv now timeoutMs radio) → rc = .ok →
    st'.radio.os.path st'.radio.rf95 = sfString sf

private theorem recv_ok_received {now timeoutMs : UInt32} {rc : LoraRadio.RC} {bytes : Bytes}
    {s : Layer.State} (h : (Layer.recv now timeoutMs (waited rc bytes) s).1 = .ok) :
    rc = .okay := by
  rw [Layer.recv] at h
  split_ifs at h
  dsimp only at h
  split_ifs at h
  cases rc <;> first | rfl | exact absurd h (by simp [waited, Layer.receiveFrame])

private theorem recv_silent {now timeoutMs : UInt32} {s : Layer.State} :
    (Layer.recv now timeoutMs .timedOut s).1 ≠ .ok := by
  rw [Layer.recv]
  split_ifs
  · simp
  · dsimp only
    split_ifs <;> simp [Layer.receiveFrame]

private theorem exec_tuned (h : Tuned st.radio) :
    exec r c st = .error .waiting ∨
      ∃ rc st', exec r c st = .ok (rc, st') ∧ Tuned st'.radio ∧
        st'.radio.spread = tunedTo st.radio.spread [(r, c)] ∧ Emits st.radio.spread c rc st st' ∧
          Listens st.radio.spread c rc st' := by
  have hdeaf {rc : Layer.RC} {st' : Station}
      (hrecv : ∀ now timeoutMs radio, c ≠ .recv now timeoutMs radio) :
      Listens st.radio.spread c rc st' :=
    fun ⟨now, timeoutMs, radio, hc⟩ => absurd hc (hrecv now timeoutMs radio)
  have hquiet {rc : Layer.RC} {st' : Station}
      (hflush : ∀ now stamp sent, c ≠ .flush now stamp sent)
      (hair : st'.radio.os.air = st.radio.os.air) : Emits st.radio.spread c rc st st' :=
    Or.inr ⟨hair, fun ⟨now, stamp, sent, hc⟩ => absurd hc (hflush now stamp sent)⟩
  -- The calls that leave the radio alone.
  have hlink (heq : exec r c st = .ok (.ok, ⟨c.exec st.link, st.radio⟩))
      (hspread : tunedTo st.radio.spread [(r, c)] = st.radio.spread)
      (hflush : ∀ now stamp sent, c ≠ .flush now stamp sent)
      (hrecv : ∀ now timeoutMs radio, c ≠ .recv now timeoutMs radio) :
      ∃ rc st', exec r c st = .ok (rc, st') ∧ Tuned st'.radio ∧
        st'.radio.spread = tunedTo st.radio.spread [(r, c)] ∧ Emits st.radio.spread c rc st st' ∧
          Listens st.radio.spread c rc st' :=
    ⟨_, _, heq, h, hspread.symm, hquiet hflush rfl, hdeaf hrecv⟩
  cases c with
  | flush now stamp sent =>
      apply Or.inr
      rw [exec]
      split
      · next frame hops =>
        obtain ⟨rc, radio, heq, htuned, hspread, hemits⟩ :=
          send_tuned r.opened r.taken frame h
        rw [heq]
        refine ⟨_, _, rfl, htuned, hspread, ?_, hdeaf (by simp)⟩
        rcases flush_ops now stamp st.link with hno | ⟨frame', hyes⟩
        · rw [(hno false).1] at hops
          exact absurd hops (by simp)
        · have hok := (hyes (decide (rc = .okay))).2
          rw [decide_eq_true_iff] at hok
          rcases hemits with ⟨hair, hrc⟩ | ⟨path, n, hpath, hair, hwhole⟩
          · exact Or.inr ⟨hair, fun _ hres => hrc (hok.mp hres)⟩
          · exact Or.inl ⟨now, stamp, sent, rfl, frame, n, path, hops, hpath, hair,
              hok.trans hwhole⟩
      · next hnone =>
        refine ⟨_, _, rfl, h, rfl, Or.inr ⟨rfl, fun _ => ?_⟩, hdeaf (by simp)⟩
        rcases flush_ops now stamp st.link with hno | ⟨frame, hyes⟩
        · exact (hno false).2
        · exact absurd (hyes false).1 (hnone frame)
  | recv now timeoutMs radio =>
      rw [exec]
      split
      · next len ms hops =>
        rcases waitRecv_tuned r.opened r.startMs r.polls len ms h with
          heq | ⟨rc, bytes, s', heq, htuned, hspread, hair, hheard⟩
        · rw [heq]
          exact Or.inl rfl
        · rw [heq]
          refine Or.inr ⟨_, _, rfl, htuned, hspread, hquiet (by simp) hair, fun _ hres => ?_⟩
          exact (hheard (recv_ok_received hres)).1
      · exact Or.inr ⟨_, _, rfl, h, rfl, hquiet (by simp) rfl,
          fun _ hres => absurd hres recv_silent⟩
  | setCdmaCode id =>
      obtain ⟨rc, s', heq, htuned, hspread, hair⟩ :=
        setSpreadingFactor_tuned r.opened r.closing (sfString_hash id) st.radio
      rw [exec, heq]
      exact Or.inr ⟨_, _, rfl, htuned, hspread, hquiet (by simp) hair, hdeaf (by simp)⟩
  | sendmsg v => exact Or.inr (hlink rfl rfl (by simp) (by simp))
  | sendmsgFlat buf sz => exact Or.inr (hlink rfl rfl (by simp) (by simp))
  | getmsg => exact Or.inr (hlink rfl rfl (by simp) (by simp))
  | activeSlot now => exact Or.inr (hlink rfl rfl (by simp) (by simp))
  | epochAndOffset n now => exact Or.inr (hlink rfl rfl (by simp) (by simp))
  | secondsUntilSelf now => exact Or.inr (hlink rfl rfl (by simp) (by simp))
  | truncateTx => exact Or.inr (hlink rfl rfl (by simp) (by simp))
  | truncateRx => exact Or.inr (hlink rfl rfl (by simp) (by simp))
  | rewind => exact Or.inr (hlink rfl rfl (by simp) (by simp))

private theorem exec_size (h : Tuned st.radio) (heq : exec r c st = .ok (rc, st'))
    (hsize : st.radio.os.files.size ≤ base + held st.radio) :
    st'.radio.os.files.size ≤ base + failedCloses [(r, c)] + held st'.radio := by
  have hsame (link : Layer.State) (hst : st' = ⟨link, st.radio⟩) :
      st'.radio.os.files.size ≤ base + 0 + held st'.radio := by
    rw [hst]
    exact hsize
  cases c with
  | flush now stamp sent =>
      rw [exec] at heq
      split at heq
      · next frame hops =>
        obtain ⟨_, hsend, heq⟩ := ok_of_bind heq
        obtain ⟨-, rfl⟩ := Prod.mk.inj (Except.ok.inj heq)
        exact send_size hsend hsize
      · exact hsame _ (Prod.mk.inj (Except.ok.inj heq)).2.symm
  | recv now timeoutMs radio =>
      rw [exec] at heq
      split at heq
      · next len ms hops =>
        obtain ⟨_, hwait, heq⟩ := ok_of_bind heq
        obtain ⟨-, rfl⟩ := Prod.mk.inj (Except.ok.inj heq)
        exact waitRecv_size hwait hsize
      · exact hsame _ (Prod.mk.inj (Except.ok.inj heq)).2.symm
  | setCdmaCode id =>
      rw [exec] at heq
      obtain ⟨_, hset, heq⟩ := ok_of_bind heq
      obtain ⟨-, rfl⟩ := Prod.mk.inj (Except.ok.inj heq)
      exact setSpreadingFactor_size h hset hsize
  | sendmsg v => exact hsame _ (Prod.mk.inj (Except.ok.inj heq)).2.symm
  | sendmsgFlat buf sz => exact hsame _ (Prod.mk.inj (Except.ok.inj heq)).2.symm
  | getmsg => exact hsame _ (Prod.mk.inj (Except.ok.inj heq)).2.symm
  | activeSlot now => exact hsame _ (Prod.mk.inj (Except.ok.inj heq)).2.symm
  | epochAndOffset n now => exact hsame _ (Prod.mk.inj (Except.ok.inj heq)).2.symm
  | secondsUntilSelf now => exact hsame _ (Prod.mk.inj (Except.ok.inj heq)).2.symm
  | truncateTx => exact hsame _ (Prod.mk.inj (Except.ok.inj heq)).2.symm
  | truncateRx => exact hsame _ (Prod.mk.inj (Except.ok.inj heq)).2.symm
  | rewind => exact hsame _ (Prod.mk.inj (Except.ok.inj heq)).2.symm

private theorem tunedTo_cons (sf : SF) (call : Replies × Call) (calls : List (Replies × Call)) :
    tunedTo sf (call :: calls) = tunedTo (tunedTo sf [call]) calls := by
  obtain ⟨r, c⟩ := call
  cases c <;> rfl

private theorem failedCloses_cons (call : Replies × Call) (calls : List (Replies × Call)) :
    failedCloses (call :: calls) = failedCloses [call] + failedCloses calls := by
  obtain ⟨r, c⟩ := call
  cases c <;> simp [failedCloses]

/-- The radio stays tuned over any run, and never exits the program. -/
private theorem run_tuned (calls : List (Replies × Call)) (h : Tuned st.radio)
    (hsize : st.radio.os.files.size ≤ base + held st.radio) :
    run calls st = .error .waiting ∨
      ∃ st', run calls st = .ok st' ∧ Tuned st'.radio ∧
        st'.radio.spread = tunedTo st.radio.spread calls ∧
          st'.radio.os.files.size ≤ base + failedCloses calls + held st'.radio := by
  induction calls generalizing st base with
  | nil => exact Or.inr ⟨st, rfl, h, rfl, hsize⟩
  | cons call calls ih =>
      obtain ⟨r, c⟩ := call
      rw [run]
      rcases exec_tuned (r := r) (c := c) h with heq | ⟨rc, st₁, heq, htuned, hspread, -, -⟩
      · rw [heq]
        exact Or.inl rfl
      · rw [heq]
        rcases ih htuned (exec_size h heq hsize) with hrun | ⟨st', hrun, htuned', hspread', hsize'⟩
        · exact Or.inl hrun
        · refine Or.inr ⟨st', hrun, htuned', ?_, ?_⟩
          · rw [tunedTo_cons, hspread', hspread]
          · rw [failedCloses_cons]
            omega

end Calls

/-- A node that has opened its radio: whatever the operating system answers, each later call finds
the radio on the channel of the last code set (`SF::Default` before any), puts a part of its frame
on no other, the whole of it if and only if `flush` returns `Ok`, and accepts a frame from no other.
The program never exits, and beyond the descriptors it started with it holds one, and one for each
failed `close`. -/
theorem calls_stay_on_channel {os : Os} {opened : Bool} {rc : LoraRadio.RC}
    {radio : LoraRadio.State} (hinit : LoraRadio.init opened (State.boot os) = .ok (rc, radio))
    (link : Layer.State) (before : List (Replies × Call)) (r : Replies) (c : Call) :
    run before ⟨link, radio⟩ ≠ .error .exited ∧
      ∀ st, run before ⟨link, radio⟩ = .ok st →
        st.radio.spread = tunedTo SF.Default before ∧
        st.radio.os.files.size ≤ os.files.size + 1 + failedCloses before ∧
        exec r c st ≠ .error .exited ∧
        ∀ rc st', exec r c st = .ok (rc, st') → Emits (tunedTo SF.Default before) c rc st st' ∧
          Listens (tunedTo SF.Default before) c rc st' := by
  obtain ⟨rc', radio', heq, htuned, hspread, -, -⟩ :=
    init_tuned opened (s := State.boot os) rfl
  rw [hinit] at heq
  obtain ⟨-, rfl⟩ := Prod.mk.inj (Except.ok.inj heq)
  have hsize := init_size hinit (le_refl os.files.size)
  have hstart : Tuned (Station.mk link radio).radio := htuned
  rcases run_tuned before hstart hsize with hrun | ⟨st, hrun, htuned', hspread', hsize'⟩
  · rw [hrun]
    exact ⟨by simp, fun st hst => absurd hst (by simp)⟩
  · have hsf : st.radio.spread = tunedTo SF.Default before := by
      rw [hspread', hspread]
      rfl
    have hheld : held st.radio ≤ 1 := by
      rw [held]
      split_ifs <;> omega
    rw [hrun]
    refine ⟨by simp, fun st' hst => ?_⟩
    obtain rfl := Except.ok.inj hst
    refine ⟨hsf, by omega, ?_⟩
    rcases exec_tuned (r := r) (c := c) htuned' with
      hwait | ⟨rc', st', hexec, -, -, hemits, hlisten⟩
    · rw [hwait]
      exact ⟨by simp, fun rc st' h => absurd h (by simp)⟩
    · rw [hexec]
      refine ⟨by simp, fun rc st' h => ?_⟩
      obtain ⟨rfl, rfl⟩ := Prod.mk.inj (Except.ok.inj h)
      rw [hsf] at hemits hlisten
      exact ⟨hemits, hlisten⟩

/-- A process with its three standard streams. -/
def stdio : Os :=
  ⟨⟨[(0, "/dev/stdin"), (1, "/dev/stdout"), (2, "/dev/stderr")], by decide⟩, []⟩

def bootRadio : LoraRadio.State where
  initialized := true
  rf95 := 3
  spread := SF.Default
  os := { stdio with files := stdio.files.insert "/lora_sf6/channel" }

def bootLink : Layer.State := Windows.started ⟨5, 0⟩ setupMac setupLink 71

/-- The node changes its code, which fails to close the old channel, and queues a message. -/
def bootCalls : List (Replies × Call) :=
  [(⟨.failed true, true, none, 0, []⟩, .setCdmaCode 3),
    (⟨.closed, true, none, 0, []⟩, .sendmsg [[42]])]

theorem boot_calls_stay_on_channel :
    run bootCalls ⟨bootLink, bootRadio⟩ ≠ .error .exited ∧
      ∀ st, run bootCalls ⟨bootLink, bootRadio⟩ = .ok st →
        st.radio.spread = 9 ∧ st.radio.os.files.size ≤ 5 ∧
        exec ⟨.closed, true, some 14, 0, []⟩ (.flush 72 72 true) st ≠ .error .exited ∧
        ∀ rc st', exec ⟨.closed, true, some 14, 0, []⟩ (.flush 72 72 true) st = .ok (rc, st') →
          Emits 9 (.flush 72 72 true) rc st st' ∧ Listens 9 (.flush 72 72 true) rc st' :=
  have hinit : LoraRadio.init true (State.boot stdio) = .ok (.okay, bootRadio) := rfl
  calls_stay_on_channel hinit bootLink bootCalls _ _

end LoraMultihop.Radio.Channels
