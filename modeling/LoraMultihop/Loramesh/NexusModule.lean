/- digest: The receive path of the LoRaMesher radio module, a mailbox for one packet. -/

import LoraMultihop.Foundation.ByteMemory
import LoraMultihop.Foundation.Runs

set_option autoImplicit false
set_option relaxedAutoImplicit false

namespace LoraMultihop.Loramesh.NexusModule

open LoraMultihop.Foundation.ByteMemory
open LoraMultihop.Foundation.Runs (Along foldl_iff_along foldl_keeps)

def RADIOLIB_ERR_NONE : Int := 0

/-- What a `read` of the channel returns where it returns bytes. -/
structure Packet where
  bytes : Bytes
  pos : 0 < bytes.length
  le : bytes.length ≤ 256

/-- The receive fields of `LM_NexusModule`. -/
structure LmNexusModule where
  rxBuf : Memory
  rxLen : Nat

namespace LmNexusModule

def new : LmNexusModule := ⟨fun _ => 0, 0⟩

def store (packet : Packet) (m : LmNexusModule) : LmNexusModule where
  rxBuf := write m.rxBuf 0 packet.bytes
  rxLen := packet.bytes.length

def receive (data : Memory) (len : Nat) (m : LmNexusModule) : Int × Memory × LmNexusModule :=
  if m.rxLen = 0 then (-1, data, m)
  else
    let copy := if len < m.rxLen then len else m.rxLen
    (RADIOLIB_ERR_NONE, write data 0 (read m.rxBuf 0 copy), { m with rxLen := 0 })

def readData (buffer : Memory) (numBytes : Nat) (m : LmNexusModule) :
    Int × Memory × LmNexusModule :=
  m.receive buffer numBytes

def getPacketLength (m : LmNexusModule) : Nat := m.rxLen

end LmNexusModule

/-- A `readData` that returned success: the number of the packet in the mailbox, counted from the
first one stored, the length asked for, and that many bytes of the buffer. -/
structure Delivery where
  number : Nat
  length : Nat
  bytes : Bytes
  deriving DecidableEq

/-- The module and its consumer, which has asked for a length or not, with all packets stored and
all deliveries. -/
structure Reception where
  radio : LmNexusModule
  asked : Option Nat
  stored : List Bytes
  delivered : List Delivery

/-- A packet is stored, or the consumer takes its next step; its buffer holds anything before. -/
inductive Event
  | store (packet : Packet)
  | consume (buffer : Memory)

def start : Reception := ⟨.new, none, [], []⟩

def step (r : Reception) : Event → Reception
  | .store packet =>
      { r with radio := r.radio.store packet, stored := r.stored ++ [packet.bytes] }
  | .consume buffer =>
      match r.asked with
      | none => { r with asked := some r.radio.getPacketLength }
      | some n =>
          let (rc, data, radio) := r.radio.readData buffer n
          { r with
            radio := radio
            asked := none
            delivered :=
              if rc = RADIOLIB_ERR_NONE then
                r.delivered ++ [⟨r.stored.length - 1, n, read data 0 n⟩]
              else r.delivered }

def run (events : List Event) : Reception := events.foldl step start

/-- Whatever is delivered is all of one packet, and no packet is delivered twice. -/
structure Intact (r : Reception) : Prop where
  whole : ∀ d ∈ r.delivered, 0 < d.length → r.stored[d.number]? = some d.bytes
  once : (r.delivered.map Delivery.number).Nodup

/-- A `readData` finds a packet of the length that `getPacketLength` returned, if that was not 0. -/
def Fits (r : Reception) : Event → Prop
  | .store _ => True
  | .consume _ => ∀ n, r.asked = some n → 0 < n → r.radio.rxLen = n

/-- An unread packet is the last one stored and not delivered, and a length asked for is that of a
packet that is still unread or has been overwritten. -/
structure Holding (r : Reception) : Prop where
  unread : r.radio.rxLen ≠ 0 →
    r.stored.getLast? = some (read r.radio.rxBuf 0 r.radio.rxLen) ∧
      ∀ d ∈ r.delivered, d.number + 1 < r.stored.length
  asked : ∀ n, r.asked = some n → 0 < n → r.radio.rxLen ≠ 0
  numbered : ∀ d ∈ r.delivered, d.number < r.stored.length
  once : (r.delivered.map Delivery.number).Nodup

private theorem start_holding : Holding start where
  unread h := absurd rfl h
  asked n h := absurd h (by simp [start])
  numbered d h := absurd h List.not_mem_nil
  once := List.nodup_nil

section Steps

variable {r : Reception} {n : Nat}

private theorem receive_empty (buffer : Memory) (h : r.radio.rxLen = 0) :
    r.radio.readData buffer n = (-1, buffer, r.radio) := if_pos h

private theorem receive_packet (buffer : Memory) (h : r.radio.rxLen ≠ 0) :
    r.radio.readData buffer n =
      (RADIOLIB_ERR_NONE, write buffer 0 (read r.radio.rxBuf 0 (min n r.radio.rxLen)),
        { r.radio with rxLen := 0 }) := by
  have hcopy : (if n < r.radio.rxLen then n else r.radio.rxLen) = min n r.radio.rxLen := by
    split_ifs <;> omega
  rw [LmNexusModule.readData, LmNexusModule.receive, if_neg h]
  dsimp only
  rw [hcopy]

/-- What a read without a packet leaves. -/
private theorem step_read_empty (buffer : Memory) (hasked : r.asked = some n)
    (h : r.radio.rxLen = 0) : step r (.consume buffer) = { r with asked := none } := by
  rw [step, hasked]
  dsimp only
  rw [receive_empty buffer h]
  rfl

private theorem step_read_packet (buffer : Memory) (hasked : r.asked = some n)
    (h : r.radio.rxLen ≠ 0) : step r (.consume buffer) =
      { r with
        radio := { r.radio with rxLen := 0 }
        asked := none
        delivered := r.delivered ++ [⟨r.stored.length - 1, n,
          read (write buffer 0 (read r.radio.rxBuf 0 (min n r.radio.rxLen))) 0 n⟩] } := by
  rw [step, hasked]
  dsimp only
  rw [receive_packet buffer h]
  rfl

private theorem step_ask (buffer : Memory) (hasked : r.asked = none) :
    step r (.consume buffer) = { r with asked := some r.radio.rxLen } := by
  rw [step, hasked]
  rfl

private theorem Holding.stored_pos (h : Holding r) (hlen : r.radio.rxLen ≠ 0) :
    0 < r.stored.length := by
  cases hstored : r.stored with
  | nil =>
      have hlast := (h.unread hlen).1
      rw [hstored] at hlast
      exact absurd hlast (by simp)
  | cons b bs => exact Nat.succ_pos _

private theorem Holding.step (h : Holding r) (e : Event) : Holding (NexusModule.step r e) := by
  cases e with
  | store packet =>
      have hread : read (write r.radio.rxBuf 0 packet.bytes) 0 packet.bytes.length =
          packet.bytes := read_write_same _ _ _
      refine ⟨?_, ?_, ?_, h.once⟩
      · intro _
        refine ⟨?_, ?_⟩
        · change (r.stored ++ [packet.bytes]).getLast? = some (read _ 0 packet.bytes.length)
          rw [List.getLast?_concat]
          exact congrArg some hread.symm
        · intro d hd
          have hlt := h.numbered d hd
          simp only [NexusModule.step, List.length_append, List.length_singleton]
          omega
      · intro n _ _
        exact Nat.ne_of_gt packet.pos
      · intro d hd
        have hlt := h.numbered d hd
        simp only [NexusModule.step, List.length_append, List.length_singleton]
        omega
  | consume buffer =>
      cases hasked : r.asked with
      | none =>
          rw [step_ask buffer hasked]
          refine ⟨h.unread, ?_, h.numbered, h.once⟩
          intro n hn hpos
          rw [← Option.some.inj hn] at hpos
          exact Nat.ne_of_gt hpos
      | some n =>
          by_cases hlen : r.radio.rxLen = 0
          · rw [step_read_empty buffer hasked hlen]
            exact ⟨h.unread, fun n hn => absurd hn (by simp), h.numbered, h.once⟩
          · have hpos := h.stored_pos hlen
            have hbefore := (h.unread hlen).2
            rw [step_read_packet buffer hasked hlen]
            refine ⟨fun hne => absurd rfl hne, fun n hn => absurd hn (by simp), ?_, ?_⟩
            · intro d hd
              rcases List.mem_append.mp hd with hd | hd
              · exact h.numbered d hd
              · rw [List.mem_singleton.mp hd]
                exact Nat.sub_lt hpos Nat.one_pos
            · rw [List.map_append]
              apply List.nodup_append.mpr
              refine ⟨h.once, List.nodup_singleton _, ?_⟩
              intro k hk k' hk' heq
              obtain ⟨d, hd, rfl⟩ := List.mem_map.mp hk
              have hlt := hbefore d hd
              rw [List.map_singleton, List.mem_singleton] at hk'
              dsimp only at hk'
              omega

private theorem delivered_iff (h : Holding r) (hlen : r.radio.rxLen ≠ 0) (buffer : Memory)
    (n : Nat) : r.stored[r.stored.length - 1]? =
        some (read (write buffer 0 (read r.radio.rxBuf 0 (min n r.radio.rxLen))) 0 n) ↔
      r.radio.rxLen = n := by
  have hlast := (h.unread hlen).1
  rw [List.getLast?_eq_getElem?] at hlast
  rw [hlast, Option.some.injEq]
  constructor
  · intro heq
    have hlength := congrArg List.length heq
    rwa [read_length, read_length] at hlength
  · rintro rfl
    rw [Nat.min_self]
    have hread := read_write_same buffer 0 (read r.radio.rxBuf 0 r.radio.rxLen)
    rw [read_length] at hread
    exact hread.symm

private theorem intact_step_iff (h : Holding r) (e : Event) :
    Intact (step r e) ↔ Intact r ∧ Fits r e := by
  cases e with
  | store packet =>
      have hkept (d : Delivery) (hd : d ∈ r.delivered) :
          (r.stored ++ [packet.bytes])[d.number]? = r.stored[d.number]? :=
        List.getElem?_append_left (h.numbered d hd)
      constructor
      · intro hi
        refine ⟨⟨?_, h.once⟩, trivial⟩
        intro d hd hpos
        rw [← hkept d hd]
        exact hi.whole d hd hpos
      · rintro ⟨hi, -⟩
        refine ⟨?_, h.once⟩
        intro d hd hpos
        exact (hkept d hd).trans (hi.whole d hd hpos)
  | consume buffer =>
      cases hasked : r.asked with
      | none =>
          rw [step_ask buffer hasked]
          constructor
          · intro hi
            exact ⟨⟨hi.whole, hi.once⟩, fun n hn => absurd (hasked.symm.trans hn) (by simp)⟩
          · rintro ⟨hi, -⟩
            exact ⟨hi.whole, hi.once⟩
      | some n =>
          have hfits : Fits r (.consume buffer) ↔ (0 < n → r.radio.rxLen = n) :=
            ⟨fun hf => hf n hasked, fun hf k hk => Option.some.inj (hasked.symm.trans hk) ▸ hf⟩
          rw [hfits]
          by_cases hlen : r.radio.rxLen = 0
          · rw [step_read_empty buffer hasked hlen]
            constructor
            · intro hi
              exact ⟨⟨hi.whole, hi.once⟩, fun hpos => absurd hlen (h.asked n hasked hpos)⟩
            · rintro ⟨hi, -⟩
              exact ⟨hi.whole, hi.once⟩
          · have hnext := h.step (.consume buffer)
            rw [step_read_packet buffer hasked hlen] at hnext ⊢
            constructor
            · intro hi
              refine ⟨⟨fun d hd => hi.whole d (List.mem_append_left _ hd), h.once⟩, ?_⟩
              intro hpos
              exact (delivered_iff h hlen buffer n).mp
                (hi.whole _ (List.mem_append_right _ List.mem_cons_self) hpos)
            · rintro ⟨hi, hfits⟩
              refine ⟨?_, hnext.once⟩
              intro d hd hpos
              rcases List.mem_append.mp hd with hd | hd
              · exact hi.whole d hd hpos
              · rw [List.mem_singleton.mp hd] at hpos ⊢
                exact (delivered_iff h hlen buffer n).mpr (hfits hpos)

/-- No packet is delivered twice, and packets are delivered whole exactly if every `readData` that
was asked for bytes finds a packet of that length. -/
theorem intact_iff (events : List Event) :
    Intact (run events) ↔ Along step Fits start events := by
  have hstart : Intact start := ⟨fun d hd => absurd hd List.not_mem_nil, List.nodup_nil⟩
  refine foldl_iff_along hstart ?_
  intro pre e _
  have hheld : Holding (pre.foldl step start) :=
    foldl_keeps (fun r e h => h.step e) start_holding pre
  rw [List.foldl_append]
  exact intact_step_iff hheld e

end Steps

/-- A packet that comes between the consumer's two calls, after a packet of two bytes. -/
def overtaken (packet : Packet) : List Event :=
  [.store ⟨[1, 2], by decide, by decide⟩, .consume fun _ => 0, .store packet, .consume fun _ => 0]

theorem overtaken_packets_torn :
    let longer := run (overtaken ⟨[3, 4, 5], by decide, by decide⟩)
    let shorter := run (overtaken ⟨[6], by decide, by decide⟩)
    longer.delivered = [⟨1, 2, [3, 4]⟩] ∧ longer.stored = [[1, 2], [3, 4, 5]] ∧
      shorter.delivered = [⟨1, 2, [6, 0]⟩] ∧ shorter.stored = [[1, 2], [6]] ∧
      ¬ Intact longer ∧ ¬ Intact shorter := by
  intro longer shorter
  have hlonger : longer.delivered = [⟨1, 2, [3, 4]⟩] := by decide
  have hshorter : shorter.delivered = [⟨1, 2, [6, 0]⟩] := by decide
  refine ⟨hlonger, rfl, hshorter, rfl, ?_, ?_⟩
  · intro h
    exact absurd (h.whole ⟨1, 2, [3, 4]⟩ (by rw [hlonger]; simp) (by decide)) (by decide)
  · intro h
    exact absurd (h.whole ⟨1, 2, [6, 0]⟩ (by rw [hshorter]; simp) (by decide)) (by decide)

end LoraMultihop.Loramesh.NexusModule
