/- digest: Millisecond deadlines over a 32-bit counter that wraps. -/

import Mathlib.Tactic

set_option autoImplicit false
set_option relaxedAutoImplicit false

namespace LoraMultihop.Net.TimeHelpers

structure MsDeadline where
  start : UInt32
  deadline : UInt32
  overflows : Bool
  deriving DecidableEq

def MsDeadline.create (durationMs millis : UInt32) : MsDeadline :=
  let deadline := millis + durationMs
  ⟨millis, deadline, decide (deadline < millis)⟩

/-- The two inner comparisons of the wrapping branch are kept as the source nests them. -/
def MsDeadline.millisUntil (d : MsDeadline) (millis : UInt32) : UInt32 :=
  if d.overflows then
    let timeUntilWraparound := if millis < d.start then 0 else 0xFFFFFFFF - millis
    let timeUntilDeadline :=
      if millis < d.deadline then (if d.deadline < millis then 0 else d.deadline - millis)
      else d.deadline
    timeUntilWraparound + timeUntilDeadline
  else if millis < d.start then 0
  else if d.deadline < millis then 0
  else d.deadline - millis

def MsDeadline.reached (d : MsDeadline) (millis : UInt32) : Bool :=
  if d.overflows then decide (d.deadline < millis) && decide (millis ≤ d.start)
  else decide (d.deadline < millis)

end LoraMultihop.Net.TimeHelpers
