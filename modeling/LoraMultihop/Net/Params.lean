/- digest: Addresses, rings and the parameter blocks shared by all layers. -/

import Mathlib.Data.List.Basic
import Mathlib.Tactic
import LoraMultihop.Foundation.ByteMemory

set_option autoImplicit false
set_option relaxedAutoImplicit false

namespace LoraMultihop.Net.Params

open LoraMultihop.Foundation.ByteMemory (Memory)

abbrev Address := UInt8
abbrev Ring := UInt8

def GATEWAY_ADDR : Address := 0
def UNKNOWN_ADDR : Address := 255
def GATEWAY_RING : Ring := 0
def UNKNOWN_RING : Ring := 255

structure NodeParams where
  address : Address
  timeS : UInt32
  deriving DecidableEq

structure MacParams where
  superframeSlotS : UInt32
  superframeFrequencyS : UInt32
  superframeSlotCount : UInt8
  guardPeriodS : UInt8
  reuseDistance : UInt8
  deriving DecidableEq

def MacParams.slotDuration (mac : MacParams) : UInt32 :=
  mac.superframeSlotS + mac.guardPeriodS.toUInt32

def MacParams.windowLength (mac : MacParams) : UInt32 :=
  mac.slotDuration * mac.superframeSlotCount.toUInt32

/-- The cached active window; it starts out as `MacState()`, the empty window at 0. -/
structure MacState where
  windowStart : UInt32
  windowEnd : UInt32
  deriving DecidableEq

def MacState.zero : MacState := ⟨0, 0⟩

/-- The two buffers are the memory their pointers lead to. -/
structure LinkParams where
  msgMaxBytes : Nat
  txBuf : Memory
  txSz : Nat
  rxBuf : Memory
  rxSz : Nat

/-- `rxCursor` is an offset into `rx_buf`, absent where the code holds a null pointer. -/
structure LinkState where
  code : UInt8
  txBytesQueued : Nat
  txMsgCount : Nat
  rxCursor : Option Nat
  rxMsgNum : Nat
  deriving DecidableEq

def DEFAULT_CODE : UInt8 := 0

def LinkState.fresh : LinkState := ⟨DEFAULT_CODE, 0, 0, none, 0⟩

def SUPERFRAME_SLOT_S : UInt32 := 3
def VTDMA_WINDOW : UInt8 := 7
def REUSE_DISTANCE : UInt8 := 3
def SUPERFRAME_SLOT_COUNT : UInt8 := 1 + REUSE_DISTANCE * VTDMA_WINDOW
def SUPERFRAME_FREQUENCY_S : UInt32 := SUPERFRAME_SLOT_S * SUPERFRAME_SLOT_COUNT.toUInt32 + 5
def GUARD_PERIOD_S : UInt8 := 0
def MSG_BUF_SIZE : Nat := 255

/-- The parameters `setup` of the node program passes on. -/
def setupMac : MacParams :=
  ⟨SUPERFRAME_SLOT_S, SUPERFRAME_FREQUENCY_S, SUPERFRAME_SLOT_COUNT, GUARD_PERIOD_S,
    REUSE_DISTANCE⟩

def setupLink : LinkParams where
  msgMaxBytes := MSG_BUF_SIZE - 12 - SUPERFRAME_SLOT_COUNT.toNat
  txBuf := fun _ => 0
  txSz := MSG_BUF_SIZE
  rxBuf := fun _ => 0
  rxSz := MSG_BUF_SIZE

theorem slotDuration_toNat_le (mac : MacParams) (h : 0 < mac.windowLength.toNat) :
    0 < mac.slotDuration.toNat ∧ 0 < mac.superframeSlotCount.toNat := by
  rw [MacParams.windowLength, UInt32.toNat_mul] at h
  constructor
  · by_contra hz
    have hd : mac.slotDuration.toNat = 0 := by omega
    simp [hd] at h
  · by_contra hz
    have hc : mac.superframeSlotCount.toNat = 0 := by omega
    simp [hc] at h

end LoraMultihop.Net.Params
