/- digest: What repeated calls of send_datagram queue of the fragments of a buffer. -/

import LoraMultihop.Multihop.Relay

set_option autoImplicit false
set_option relaxedAutoImplicit false

namespace LoraMultihop.Multihop.Fragments

open LoraMultihop.Foundation.ByteMemory (Bytes)
open LoraMultihop.Net.Params
open LoraMultihop.Link
open LoraMultihop.Multihop.Messages
open LoraMultihop.Multihop.State
open LoraMultihop.Multihop.Sending
open LoraMultihop.Multihop.Relay (forwardingRelay)

/-- The layer is set up, and the largest message of the buffer fits an empty queue. -/
structure Fits (buf : Bytes) (max : UInt16) (n : Node) : Prop where
  link : n.link.initialized = true
  queue : min buf.length max.toNat + 11 ≤ Queue.txBytesAvailable { n.link with tx := [] }
  message : min buf.length max.toNat + 10 ≤ n.link.msgMaxBytes

/-- The iterator is inside the buffer it was made for. -/
structure Over (buf : Bytes) (max : UInt16) (iter : DatagramIterator) : Prop where
  bytes : iter.buf = buf
  bound : iter.maxFragmentBytes = max
  within : iter.i ≤ buf.length

def nextSize (iter : DatagramIterator) : Nat :=
  min (iter.buf.length - iter.i) iter.maxFragmentBytes.toNat

/-- The queue has room for the bytes of the next fragment and not for its message. -/
def Squeezed (iter : DatagramIterator) (n : Node) : Prop :=
  n.state.initialized = true ∧ iter.hasNext = true ∧
    nextSize iter ≤ Queue.txBytesAvailable n.link ∧
    Queue.txBytesAvailable n.link < nextSize iter + 11

instance (iter : DatagramIterator) (n : Node) : Decidable (Squeezed iter n) :=
  inferInstanceAs (Decidable (_ ∧ _))

/-- A call that does not return `Ok` leaves the iterator and the queue as they were. -/
def KeepsFragment (stamp : UInt32) (iter : DatagramIterator) (n : Node) : Prop :=
  let r := sendDatagram stamp iter n
  r.1 ≠ .ok → r.2.1.part = iter.part ∧ r.2.1.i = iter.i ∧ r.2.2.link.tx = n.link.tx

def advanced (iter : DatagramIterator) : DatagramIterator :=
  { iter with
    lastMsgSz := UInt16.ofNat (nextSize iter)
    part := iter.part + 1
    i := iter.i + nextSize iter }

private theorem nextSize_toNat (iter : DatagramIterator) :
    (UInt16.ofNat (nextSize iter)).toNat = nextSize iter := by
  have hlt := iter.maxFragmentBytes.toNat_lt
  apply UInt16.toNat_ofNat_of_lt'
  simp only [nextSize, UInt16.size]
  omega

private theorem nextBytes_length (iter : DatagramIterator) :
    ((iter.buf.drop iter.i).take (nextSize iter)).length = nextSize iter := by
  simp only [List.length_take, List.length_drop, nextSize]
  omega

theorem next_some {iter : DatagramIterator} (h : iter.hasNext = true) :
    iter.next = some (.datagram (UInt16.ofNat (nextSize iter)) iter.count iter.part,
      (iter.buf.drop iter.i).take (nextSize iter), advanced iter) := by
  rw [DatagramIterator.next, DatagramIterator.peek, if_pos h]
  have hlen := nextBytes_length iter
  have hsize := nextSize_toNat iter
  simp only [nextSize] at hlen hsize
  simp only [Option.map_some, advanced, nextSize, hlen, hsize]

theorem next_none {iter : DatagramIterator} (h : iter.hasNext = false) : iter.next = none := by
  rw [DatagramIterator.next, DatagramIterator.peek, if_neg (by simp [h])]
  rfl

theorem rewind_advanced (iter : DatagramIterator) :
    (advanced iter).rewind = { iter with lastMsgSz := 0 } := by
  simp only [DatagramIterator.rewind, advanced, nextSize_toNat]
  congr 1
  · simp
  · omega

theorem sendDatagram_notInit {stamp : UInt32} {iter : DatagramIterator} {n : Node}
    (hi : n.state.initialized = false) : sendDatagram stamp iter n = (.notInit, iter, n) := by
  rw [sendDatagram, if_pos hi]

theorem sendDatagram_end {stamp : UInt32} {iter : DatagramIterator} {n : Node}
    (hi : n.state.initialized = true) (h : iter.hasNext = false) :
    sendDatagram stamp iter n = (.noData, iter, n) := by
  rw [sendDatagram, if_neg (by simp [hi]), next_none h]

theorem sendDatagram_full {stamp : UInt32} {iter : DatagramIterator} {n : Node}
    (hi : n.state.initialized = true) (h : iter.hasNext = true)
    (hfull : Queue.txBytesAvailable n.link < nextSize iter) :
    sendDatagram stamp iter n = (.linkFull, { iter with lastMsgSz := 0 }, n) := by
  rw [sendDatagram, if_neg (by simp [hi]), next_some h]
  dsimp only
  rw [if_pos (by simpa only [advanced, nextSize_toNat] using hfull), rewind_advanced]

def fragmentMessage (stamp : UInt32) (iter : DatagramIterator) (n : Node) : Message :=
  ⟨stamp, n.state.address,
    .datagram (UInt16.ofNat (nextSize iter)) iter.count iter.part⟩

def fragmentBytes (stamp : UInt32) (iter : DatagramIterator) (n : Node) : Bytes :=
  (fragmentMessage stamp iter n).toBytes ++ (iter.buf.drop iter.i).take (nextSize iter)

theorem fragmentBytes_length (stamp : UInt32) (iter : DatagramIterator) (n : Node) :
    (fragmentBytes stamp iter n).length = nextSize iter + 10 := by
  rw [fragmentBytes, List.length_append, nextBytes_length]
  exact Nat.add_comm _ _

theorem fragmentBytes_decodes (stamp : UInt32) (iter : DatagramIterator) (n : Node) :
    decodeMsg (fragmentBytes stamp iter n) =
      some (fragmentMessage stamp iter n, (iter.buf.drop iter.i).take (nextSize iter)) := by
  apply decodeMsg_toBytes
  change ((iter.buf.drop iter.i).take (nextSize iter)).length = _
  rw [nextBytes_length, nextSize_toNat]

theorem sendDatagram_handed {stamp : UInt32} {iter : DatagramIterator} {n : Node}
    (hi : n.state.initialized = true) (h : iter.hasNext = true)
    (hroom : nextSize iter ≤ Queue.txBytesAvailable n.link) :
    sendDatagram stamp iter n =
      ((send (fragmentMessage stamp iter n)
        ((iter.buf.drop iter.i).take (nextSize iter)) n).1, advanced iter,
        (send (fragmentMessage stamp iter n)
          ((iter.buf.drop iter.i).take (nextSize iter)) n).2) := by
  rw [sendDatagram, if_neg (by simp [hi]), next_some h]
  dsimp only
  rw [if_neg (by simpa only [advanced, nextSize_toNat, Nat.not_lt] using hroom)]
  rfl

section Buffer

variable {buf : Bytes} {max : UInt16} {iter : DatagramIterator} {n : Node}

private theorem Over.size_le (h : Over buf max iter) :
    nextSize iter ≤ min buf.length max.toNat := by
  rw [nextSize, h.bytes, h.bound]
  omega

private theorem Over.advanced (h : Over buf max iter) : Over buf max (advanced iter) := by
  refine ⟨h.bytes, h.bound, ?_⟩
  have hwithin := h.within
  simp only [Fragments.advanced, nextSize, h.bytes]
  omega

private theorem sendDatagram_squeezed (stamp : UInt32) (hsq : Squeezed iter n)
    (hlink : n.link.initialized = true) :
    sendDatagram stamp iter n = (.linkFull, advanced iter, n) := by
  obtain ⟨hi, h, hroom, hless⟩ := hsq
  have hlen := fragmentBytes_length stamp iter n
  rw [fragmentBytes] at hlen
  rw [sendDatagram_handed hi h hroom, send, Queue.sendmsg, if_neg (by simp [hlink]),
    if_pos (by omega)]

private theorem sendDatagram_queued (stamp : UInt32) (hover : Over buf max iter)
    (hfits : Fits buf max n) (hi : n.state.initialized = true) (h : iter.hasNext = true)
    (hroom : nextSize iter + 11 ≤ Queue.txBytesAvailable n.link) :
    sendDatagram stamp iter n = (.ok, advanced iter, n.push (fragmentBytes stamp iter n)) := by
  have hlen := fragmentBytes_length stamp iter n
  have hsize := hover.size_le
  have hmessage := hfits.message
  rw [sendDatagram_handed hi h (by omega)]
  rcases send_cases (fragmentMessage stamp iter n)
    ((iter.buf.drop iter.i).take (nextSize iter)) n with ⟨hrc, -, hn⟩ | ⟨-, hno, -⟩
  · rw [hrc, hn]
    rfl
  · refine absurd ⟨hfits.link, ?_, ?_⟩ hno
    · rw [fragmentBytes] at hlen
      omega
    · rw [fragmentBytes] at hlen
      omega

private theorem keepsFragment_iff (stamp : UInt32) (hover : Over buf max iter)
    (hfits : Fits buf max n) : KeepsFragment stamp iter n ↔ ¬ Squeezed iter n := by
  unfold KeepsFragment
  dsimp only
  constructor
  · intro hkeeps hsq
    have hcall := sendDatagram_squeezed stamp hsq hfits.link
    rw [hcall] at hkeeps
    obtain ⟨hsame, -, -⟩ := hkeeps (by simp)
    simp [advanced] at hsame
  · intro hsq hrc
    cases hi : n.state.initialized with
    | false =>
        rw [sendDatagram_notInit hi]
        exact ⟨rfl, rfl, rfl⟩
    | true =>
        cases h : iter.hasNext with
        | false =>
            rw [sendDatagram_end hi h]
            exact ⟨rfl, rfl, rfl⟩
        | true =>
            by_cases hfull : Queue.txBytesAvailable n.link < nextSize iter
            · rw [sendDatagram_full hi h hfull]
              exact ⟨rfl, rfl, rfl⟩
            · have hroom : nextSize iter + 11 ≤ Queue.txBytesAvailable n.link := by
                by_contra hless
                exact hsq ⟨hi, h, by omega, by omega⟩
              rw [sendDatagram_queued stamp hover hfits hi h hroom] at hrc
              exact absurd rfl hrc

end Buffer

def fragmentCount (buf : Bytes) (max : UInt16) : Nat :=
  (buf.length + max.toNat - 1) / max.toNat

def fragmentAt (buf : Bytes) (max : UInt16) (k : Nat) : Body × Bytes :=
  let fragment := (buf.drop (k * max.toNat)).take max.toNat
  (.datagram (UInt16.ofNat fragment.length) (UInt8.ofNat (fragmentCount buf max)) (UInt8.ofNat k),
    fragment)

def fragments (buf : Bytes) (max : UInt16) : List (Body × Bytes) :=
  (List.range (fragmentCount buf max)).map (fragmentAt buf max)

structure IterAt (buf : Bytes) (max : UInt16) (k : Nat) (iter : DatagramIterator) : Prop
    extends Over buf max iter where
  le : k ≤ fragmentCount buf max
  count : iter.count = UInt8.ofNat (fragmentCount buf max)
  part : iter.part = UInt8.ofNat k
  place : iter.i = min (k * max.toNat) buf.length

def received (b : Bytes) : Option (Body × Bytes) := (decodeMsg b).map fun r => (r.1.body, r.2)

/-- A turn of the caller: the reading for the message, and those of a flush and how it ends. -/
structure Turn where
  stamp : UInt32
  flushNow : UInt32
  sent : Bool

structure Visit where
  turn : Turn
  iter : DatagramIterator
  node : Node

namespace Visit

def call (v : Visit) : RC × DatagramIterator × Node := sendDatagram v.turn.stamp v.iter v.node

/-- The node after the call, flushed where the link was full. -/
def after (v : Visit) : Node :=
  if v.call.1 = .linkFull then (flush v.turn.flushNow v.turn.sent v.call.2.2).2.1
  else v.call.2.2

def added (v : Visit) : List Bytes := v.call.2.2.link.tx.drop v.node.link.tx.length

/-- If the link is full, the flush gets the frame out. -/
def Flushes (v : Visit) : Prop :=
  v.call.1 = .linkFull → GoesOut v.turn.flushNow v.turn.sent v.call.2.2

end Visit

/-- The calls of a caller that repeats `send_datagram` until it returns `NoData`. -/
def visits : List Turn → DatagramIterator → Node → List Visit
  | [], _, _ => []
  | t :: turns, iter, n =>
      let v : Visit := ⟨t, iter, n⟩
      v :: if v.call.1 = .noData then [] else visits turns v.call.2.1 v.after

def Finished (vs : List Visit) : Prop := ∃ v ∈ vs, v.call.1 = .noData

def queuedBy (vs : List Visit) : List Bytes := vs.flatMap Visit.added

section Run

variable {buf : Bytes} {max : UInt16} {k : Nat} {iter : DatagramIterator} {n : Node}

theorem lt_fragmentCount_iff (hmax : 1 ≤ max.toNat) :
    k < fragmentCount buf max ↔ k * max.toNat < buf.length := by
  rw [fragmentCount, ← Nat.succ_le_iff, Nat.le_div_iff_mul_le hmax, Nat.succ_mul]
  omega

theorem fragments_length (buf : Bytes) (max : UInt16) :
    (fragments buf max).length = fragmentCount buf max := by
  simp [fragments]

theorem fragments_take_succ {k : Nat} (hk : k < fragmentCount buf max) :
    (fragments buf max).take (k + 1) = (fragments buf max).take k ++ [fragmentAt buf max k] := by
  rw [List.take_succ_eq_append_getElem (by simpa [fragments] using hk)]
  simp [fragments]

theorem fragments_take_flatten {k : Nat} (hk : k ≤ fragmentCount buf max) :
    (((fragments buf max).take k).map Prod.snd).flatten = buf.take (k * max.toNat) := by
  induction k with
  | zero => simp
  | succ k ih =>
      rw [fragments_take_succ hk, List.map_append, List.flatten_append, ih (by omega),
        Nat.succ_mul, List.take_add]
      simp [fragmentAt]

theorem fragments_flatten (hmax : 1 ≤ max.toNat) :
    ((fragments buf max).map Prod.snd).flatten = buf := by
  have hall := fragments_take_flatten (le_refl (fragmentCount buf max))
  have hend : ¬ fragmentCount buf max * max.toNat < buf.length :=
    fun h => lt_irrefl _ ((lt_fragmentCount_iff hmax).mpr h)
  rwa [List.take_of_length_le (fragments_length buf max).le,
    List.take_of_length_le (Nat.not_lt.mp hend)] at hall

theorem create_eq (buf : Bytes) (max : UInt16) :
    DatagramIterator.create buf max =
      if 255 < fragmentCount buf max then ⟨0, 0, buf.length, buf, max, 0⟩
      else ⟨0, UInt8.ofNat (fragmentCount buf max), 0, buf, max, 0⟩ := rfl

theorem create_at (hcount : fragmentCount buf max ≤ 255) :
    IterAt buf max 0 (DatagramIterator.create buf max) := by
  rw [create_eq, if_neg (Nat.not_lt.mpr hcount)]
  exact ⟨⟨rfl, rfl, Nat.zero_le _⟩, Nat.zero_le _, rfl, rfl, by simp⟩

theorem IterAt.hasNext_iff (hat : IterAt buf max k iter) (hmax : 1 ≤ max.toNat) :
    iter.hasNext = true ↔ k < fragmentCount buf max := by
  have hplace := hat.place
  rw [lt_fragmentCount_iff hmax, DatagramIterator.hasNext, decide_eq_true_eq, hat.bytes]
  omega

theorem IterAt.advanced (hat : IterAt buf max k iter) (hmax : 1 ≤ max.toNat)
    (hk : k < fragmentCount buf max) : IterAt buf max (k + 1) (advanced iter) := by
  have hlt := (lt_fragmentCount_iff hmax).mp hk
  have hplace := hat.place
  refine ⟨hat.toOver.advanced, hk, hat.count, ?_, ?_⟩
  · simp [Fragments.advanced, hat.part]
  · simp only [Fragments.advanced, nextSize, hat.bytes, hat.bound, Nat.succ_mul]
    omega

theorem IterAt.kept (hat : IterAt buf max k iter) :
    IterAt buf max k { iter with lastMsgSz := 0 } :=
  ⟨⟨hat.bytes, hat.bound, hat.within⟩, hat.le, hat.count, hat.part, hat.place⟩

theorem IterAt.fragment (hat : IterAt buf max k iter) (hmax : 1 ≤ max.toNat)
    (hk : k < fragmentCount buf max) :
    (.datagram (UInt16.ofNat (nextSize iter)) iter.count iter.part,
      (iter.buf.drop iter.i).take (nextSize iter)) = fragmentAt buf max k := by
  have hlt := (lt_fragmentCount_iff hmax).mp hk
  have hplace : iter.i = k * max.toNat := by
    rw [hat.place]
    omega
  have hbytes : (iter.buf.drop iter.i).take (nextSize iter) =
      (buf.drop (k * max.toNat)).take max.toNat := by
    rw [nextSize, hat.bytes, hat.bound, hplace, ← List.length_drop, List.take_eq_take_iff]
    omega
  have hsize := nextBytes_length iter
  rw [hbytes] at hsize
  simp only [fragmentAt, hbytes, hsize, hat.count, hat.part]

private theorem IterAt.received (hat : IterAt buf max k iter) (hmax : 1 ≤ max.toNat)
    (hk : k < fragmentCount buf max) (stamp : UInt32) (n : Node) :
    received (fragmentBytes stamp iter n) = some (fragmentAt buf max k) := by
  rw [← hat.fragment hmax hk]
  simp only [Fragments.received, fragmentBytes_decodes, Option.map_some, fragmentMessage]

private theorem Fits.push (hfits : Fits buf max n) (b : Bytes) : Fits buf max (n.push b) :=
  ⟨hfits.link, hfits.queue, hfits.message⟩

private theorem Fits.flush (hfits : Fits buf max n) (now : UInt32) (sent : Bool) :
    Fits buf max (Sending.flush now sent n).2.1 := by
  by_cases h : GoesOut now sent n
  · rw [flush_out h]
    exact ⟨hfits.link, hfits.queue, hfits.message⟩
  · obtain ⟨-, -, w, hw⟩ := flush_kept h
    rw [hw]
    exact ⟨hfits.link, hfits.queue, hfits.message⟩

private theorem Fits.after {v : Visit} (hfits : Fits buf max v.node) : Fits buf max v.after := by
  have hcall : Fits buf max v.call.2.2 := by
    rw [Visit.call, sendDatagram]
    split_ifs
    · exact hfits
    · split
      · exact hfits
      · dsimp only
        split_ifs
        · exact hfits
        · rcases send_cases _ _ v.node with ⟨-, -, hn⟩ | ⟨-, -, hn⟩
          · rw [hn]
            exact hfits.push _
          · rwa [hn]
  rw [Visit.after]
  split_ifs
  · exact hcall.flush _ _
  · exact hcall

private theorem call_cases {v : Visit} (hat : IterAt buf max k v.iter) (hfits : Fits buf max v.node)
    (hmax : 1 ≤ max.toNat) :
    v.call.1 = .noData ∧ k = fragmentCount buf max ∧ v.added = [] ∧ ¬ Squeezed v.iter v.node ∨
      v.call.1 ≠ .noData ∧ IterAt buf max k v.call.2.1 ∧ v.added = [] ∧
        ¬ Squeezed v.iter v.node ∨
      v.call.1 ≠ .noData ∧ k < fragmentCount buf max ∧ IterAt buf max (k + 1) v.call.2.1 ∧
        (Squeezed v.iter v.node ∧ v.added = [] ∨
          ¬ Squeezed v.iter v.node ∧ ∃ b, v.added = [b] ∧
            received b = some (fragmentAt buf max k)) := by
  obtain ⟨t, iter, n⟩ := v
  rw [Visit.added]
  unfold Visit.call
  dsimp only at hat hfits ⊢
  cases hi : n.state.initialized with
  | false =>
      rw [sendDatagram_notInit hi]
      exact Or.inr (Or.inl ⟨by simp, hat, List.drop_length, by simp [Squeezed, hi]⟩)
  | true =>
      cases h : iter.hasNext with
      | false =>
          have hend := hat.hasNext_iff hmax
          rw [sendDatagram_end hi h]
          have hk : k = fragmentCount buf max := by
            have hle := hat.le
            rw [h] at hend
            simp only [Bool.false_eq_true, false_iff] at hend
            omega
          exact Or.inl ⟨rfl, hk, List.drop_length, by simp [Squeezed, h]⟩
      | true =>
          have hk := (hat.hasNext_iff hmax).mp h
          by_cases hfull : Queue.txBytesAvailable n.link < nextSize iter
          · rw [sendDatagram_full hi h hfull]
            exact Or.inr (Or.inl ⟨by simp, hat.kept, List.drop_length,
              fun h' => absurd h'.2.2.1 (Nat.not_le.mpr hfull)⟩)
          · refine Or.inr (Or.inr ?_)
            by_cases hsq : Squeezed iter n
            · rw [sendDatagram_squeezed t.stamp hsq hfits.link]
              exact ⟨by simp, hk, hat.advanced hmax hk, Or.inl ⟨hsq, List.drop_length⟩⟩
            · have hroom : nextSize iter + 11 ≤ Queue.txBytesAvailable n.link := by
                by_contra hless
                exact hsq ⟨hi, h, by omega, by omega⟩
              rw [sendDatagram_queued t.stamp hat.toOver hfits hi h hroom]
              exact ⟨by simp, hk, hat.advanced hmax hk, Or.inr ⟨hsq, _, List.drop_left,
                hat.received hmax hk t.stamp n⟩⟩

private theorem Finished.tail {v : Visit} {vs : List Visit} (h : Finished (v :: vs))
    (hrc : v.call.1 ≠ .noData) : Finished vs := by
  obtain ⟨w, hw, hend⟩ := h
  cases List.mem_cons.mp hw with
  | inl heq => exact absurd (heq ▸ hend) hrc
  | inr hmem => exact ⟨w, hmem, hend⟩

@[simp] theorem queuedBy_cons (v : Visit) (vs : List Visit) :
    queuedBy (v :: vs) = v.added ++ queuedBy vs := rfl

private theorem fragments_drop (hk : k < fragmentCount buf max) :
    (fragments buf max).drop k = fragmentAt buf max k :: (fragments buf max).drop (k + 1) := by
  rw [List.drop_eq_getElem_cons (by simpa [fragments] using hk)]
  simp [fragments]

private theorem visits_queue {turns : List Turn} (hat : IterAt buf max k iter)
    (hfits : Fits buf max n) (hmax : 1 ≤ max.toNat) (hfin : Finished (visits turns iter n)) :
    (queuedBy (visits turns iter n)).length +
        (visits turns iter n).countP (fun v => Squeezed v.iter v.node) =
      fragmentCount buf max - k ∧
    ((∀ v ∈ visits turns iter n, ¬ Squeezed v.iter v.node) →
      (queuedBy (visits turns iter n)).map received = ((fragments buf max).drop k).map some) := by
  induction turns generalizing k iter n with
  | nil =>
      obtain ⟨v, hv, -⟩ := hfin
      exact absurd hv List.not_mem_nil
  | cons t turns ih =>
      rw [visits] at hfin ⊢
      have hafter : Fits buf max (Visit.after ⟨t, iter, n⟩) := Fits.after hfits
      rcases call_cases (v := ⟨t, iter, n⟩) hat hfits hmax with
        ⟨hrc, hk, hadded, hsq⟩ | ⟨hrc, hat', hadded, hsq⟩ | ⟨hrc, hk, hat', hfate⟩
      · have hlen : (fragments buf max).length = k := by simp [fragments, hk]
        rw [if_pos hrc]
        refine ⟨?_, fun _ => ?_⟩
        · simp [queuedBy, hadded, hsq, hk]
        · simp [queuedBy, hadded, ← hlen]
      · rw [if_neg hrc] at hfin ⊢
        obtain ⟨hcount, hqueue⟩ := ih hat' hafter (hfin.tail hrc)
        refine ⟨?_, fun hall => ?_⟩
        · rw [List.countP_cons_of_neg (by simpa using hsq), queuedBy_cons, hadded,
            List.nil_append, hcount]
        · rw [queuedBy_cons, hadded, List.nil_append]
          exact hqueue fun v hv => hall v (List.mem_cons_of_mem _ hv)
      · rw [if_neg hrc] at hfin ⊢
        obtain ⟨hcount, hqueue⟩ := ih hat' hafter (hfin.tail hrc)
        rcases hfate with ⟨hsq, hadded⟩ | ⟨hsq, b, hadded, hb⟩
        · refine ⟨?_, fun hall => absurd hsq (hall _ List.mem_cons_self)⟩
          rw [List.countP_cons_of_pos (by simpa using hsq), queuedBy_cons, hadded,
            List.nil_append]
          omega
        · refine ⟨?_, fun hall => ?_⟩
          · rw [List.countP_cons_of_neg (by simpa using hsq), queuedBy_cons, hadded,
              List.singleton_append, List.length_cons]
            omega
          · rw [queuedBy_cons, hadded, List.singleton_append, List.map_cons, hb,
              hqueue fun v hv => hall v (List.mem_cons_of_mem _ hv), fragments_drop hk,
              List.map_cons]

private theorem visits_refused {turns : List Turn} (h : iter.hasNext = false) :
    queuedBy (visits turns iter n) = [] := by
  induction turns generalizing n with
  | nil => rfl
  | cons t turns ih =>
      rw [visits]
      cases hi : n.state.initialized with
      | false =>
          have hcall : Visit.call ⟨t, iter, n⟩ = (.notInit, iter, n) := sendDatagram_notInit hi
          rw [if_neg (by simp [hcall]), queuedBy_cons, Visit.added, hcall, List.drop_length,
            List.nil_append]
          exact ih
      | true =>
          have hcall : Visit.call ⟨t, iter, n⟩ = (.noData, iter, n) := sendDatagram_end hi h
          rw [if_pos (by simp [hcall]), queuedBy_cons, Visit.added, hcall, List.drop_length]
          rfl

private theorem after_full {v : Visit} {iter' : DatagramIterator}
    (hcall : v.call = (.linkFull, iter', v.node)) (hflush : v.Flushes) :
    v.after.state = v.node.state ∧ v.after.link.tx = [] := by
  have hgo := hflush (by rw [hcall])
  rw [hcall] at hgo
  rw [Visit.after, hcall, if_pos rfl, flush_out hgo]
  exact ⟨rfl, rfl⟩

/-- The calls left to make at most: two a fragment, and one to find the queue full. -/
def callsLeft (buf : Bytes) (max : UInt16) (k : Nat) (n : Node) : Nat :=
  2 * (fragmentCount buf max - k) + if n.link.tx = [] then 0 else 1

private theorem callsLeft_empty (k : Nat) {n : Node} (h : n.link.tx = []) :
    callsLeft buf max k n = 2 * (fragmentCount buf max - k) := by
  rw [callsLeft, if_pos h, Nat.add_zero]

private theorem callsLeft_bounds (k : Nat) (n : Node) :
    2 * (fragmentCount buf max - k) ≤ callsLeft buf max k n ∧
      callsLeft buf max k n ≤ 2 * (fragmentCount buf max - k) + 1 := by
  rw [callsLeft]
  split_ifs <;> omega

private theorem tx_ne_nil (hover : Over buf max iter) (hfits : Fits buf max n)
    (hfull : Queue.txBytesAvailable n.link < nextSize iter) : n.link.tx ≠ [] := by
  intro htx
  have hqueue := hfits.queue
  have hsize := hover.size_le
  have hsame : ({ n.link with tx := [] } : Queue.State) = n.link := by rw [← htx]
  rw [hsame] at hqueue
  omega

private theorem call_progress {v : Visit} (hat : IterAt buf max k v.iter)
    (hfits : Fits buf max v.node)
    (hmax : 1 ≤ max.toNat) (hi : v.node.state.initialized = true) (hflush : v.Flushes)
    (hrc : v.call.1 ≠ .noData) :
    ∃ k', IterAt buf max k' v.call.2.1 ∧ v.after.state = v.node.state ∧
      callsLeft buf max k' v.after < callsLeft buf max k v.node := by
  have hleft := @callsLeft_bounds buf max k v.node
  cases h : v.iter.hasNext with
  | false =>
      have hcall : v.call = (.noData, v.iter, v.node) := sendDatagram_end hi h
      exact absurd (by rw [hcall]) hrc
  | true =>
      have hk := (hat.hasNext_iff hmax).mp h
      by_cases hfull : Queue.txBytesAvailable v.node.link < nextSize v.iter
      · have hcall : v.call = (.linkFull, { v.iter with lastMsgSz := 0 }, v.node) :=
          sendDatagram_full hi h hfull
        obtain ⟨hstate, htx⟩ := after_full hcall hflush
        refine ⟨k, by rw [hcall]; exact hat.kept, hstate, ?_⟩
        rw [callsLeft_empty k htx, callsLeft, if_neg (tx_ne_nil hat.toOver hfits hfull)]
        omega
      · by_cases hsq : Squeezed v.iter v.node
        · have hcall : v.call = (.linkFull, advanced v.iter, v.node) :=
            sendDatagram_squeezed v.turn.stamp hsq hfits.link
          obtain ⟨hstate, htx⟩ := after_full hcall hflush
          refine ⟨k + 1, by rw [hcall]; exact hat.advanced hmax hk, hstate, ?_⟩
          rw [callsLeft_empty (k + 1) htx]
          omega
        · have hroom : nextSize v.iter + 11 ≤ Queue.txBytesAvailable v.node.link := by
            by_contra hless
            exact hsq ⟨hi, h, by omega, by omega⟩
          have hcall : v.call = (.ok, advanced v.iter,
              v.node.push (fragmentBytes v.turn.stamp v.iter v.node)) :=
            sendDatagram_queued v.turn.stamp hat.toOver hfits hi h hroom
          have hafter : v.after = v.call.2.2 := if_neg (by simp [hcall])
          refine ⟨k + 1, by rw [hcall]; exact hat.advanced hmax hk, by rw [hafter, hcall]; rfl, ?_⟩
          have hnext := @callsLeft_bounds buf max (k + 1) v.after
          omega

private theorem visits_finish {turns : List Turn} (hat : IterAt buf max k iter)
    (hfits : Fits buf max n) (hmax : 1 ≤ max.toNat) (hi : n.state.initialized = true)
    (hflush : ∀ v ∈ visits turns iter n, v.Flushes)
    (hturns : callsLeft buf max k n < turns.length) : Finished (visits turns iter n) := by
  induction turns generalizing k iter n with
  | nil => exact absurd hturns (Nat.not_lt_zero _)
  | cons t turns ih =>
      rw [List.length_cons] at hturns
      rw [visits] at hflush ⊢
      obtain ⟨hv, hrest⟩ := List.forall_mem_cons.mp hflush
      by_cases hrc : (Visit.call ⟨t, iter, n⟩).1 = .noData
      · exact ⟨_, List.mem_cons_self, hrc⟩
      · rw [if_neg hrc] at hrest ⊢
        obtain ⟨k', hat', hstate, hless⟩ :=
          call_progress (v := ⟨t, iter, n⟩) hat hfits hmax hi hv hrc
        have hafter : Fits buf max (Visit.after ⟨t, iter, n⟩) := Fits.after hfits
        obtain ⟨w, hw, hend⟩ := ih hat' hafter (by rw [hstate]; exact hi) hrest
          (Nat.lt_of_lt_of_le hless (Nat.le_of_lt_succ hturns))
        exact ⟨w, List.mem_cons_of_mem _ hw, hend⟩

/-- `send_datagram` keeps a fragment it does not queue exactly when the queue is not squeezed, and a
caller that flushes on `LinkFull` gets every fragment of a buffer queued, once and in order, exactly
when no call finds the queue squeezed. The queue stands for one of at most 255 bytes
(`Queue.Sound`). -/
theorem fragments_kept_iff (hmax : 1 ≤ max.toNat) (hfits : Fits buf max n) :
    (∀ stamp iter, Over buf max iter → (KeepsFragment stamp iter n ↔ ¬ Squeezed iter n)) ∧
    (∀ turns, Finished (visits turns (.create buf max) n) →
      ((queuedBy (visits turns (.create buf max) n)).map received =
          (fragments buf max).map some ↔
        fragmentCount buf max ≤ 255 ∧
          ∀ v ∈ visits turns (.create buf max) n, ¬ Squeezed v.iter v.node)) ∧
    (∀ turns, n.state.initialized = true →
      (∀ v ∈ visits turns (.create buf max) n, v.Flushes) →
        2 * fragmentCount buf max + 1 < turns.length →
          Finished (visits turns (.create buf max) n)) := by
  have hlength := fragments_length buf max
  have hrefused (h : ¬ fragmentCount buf max ≤ 255) :
      (DatagramIterator.create buf max).hasNext = false := by
    rw [create_eq, if_pos (Nat.not_le.mp h)]
    simp [DatagramIterator.hasNext]
  refine ⟨fun stamp iter hover => keepsFragment_iff stamp hover hfits, ?_, ?_⟩
  · intro turns hfin
    constructor
    · intro hqueue
      have hcount : fragmentCount buf max ≤ 255 := by
        by_contra h
        rw [visits_refused (hrefused h)] at hqueue
        have hnil := congrArg List.length hqueue
        simp only [List.map_nil, List.length_nil, List.length_map, hlength] at hnil
        omega
      refine ⟨hcount, ?_⟩
      obtain ⟨hsum, -⟩ := visits_queue (create_at hcount) hfits hmax hfin
      have hlen := congrArg List.length hqueue
      simp only [List.length_map, hlength] at hlen
      have hzero := List.countP_eq_zero.mp (by omega :
        (visits turns (.create buf max) n).countP (fun v => Squeezed v.iter v.node) = 0)
      intro v hv
      simpa using hzero v hv
    · rintro ⟨hcount, hall⟩
      exact (visits_queue (create_at hcount) hfits hmax hfin).2 hall
  · intro turns hi hflush hturns
    by_cases hcount : fragmentCount buf max ≤ 255
    · apply visits_finish (create_at hcount) hfits hmax hi hflush
      have hleft := @callsLeft_bounds buf max 0 n
      omega
    · cases turns with
      | nil => exact absurd hturns (Nat.not_lt_zero _)
      | cons t turns =>
          have hcall : Visit.call ⟨t, .create buf max, n⟩ = (.noData, .create buf max, n) :=
            sendDatagram_end hi (hrefused hcount)
          exact ⟨_, List.mem_cons_self, by rw [hcall]⟩

end Run

/-- The relay with two messages in its queue, which leave `15 - more` bytes. -/
def loadedRelay (more : Nat) : Node :=
  { forwardingRelay with
    link :=
      { forwardingRelay.link with
        tx := [List.replicate 113 0, List.replicate (113 + more) 0] } }

def reading : Bytes := List.replicate 10 1 ++ List.replicate 10 2

def retries : List Turn := [⟨113, 113, true⟩, ⟨114, 114, true⟩, ⟨115, 115, true⟩, ⟨116, 116, true⟩]

private theorem fits_loadedRelay (more : Nat) : Fits reading 10 (loadedRelay more) := by
  have hfits : Fits reading 10 forwardingRelay := ⟨rfl, by decide +kernel, by decide +kernel⟩
  exact ⟨rfl, hfits.queue, hfits.message⟩

theorem full_queue_keeps_fragments :
    (queuedBy (visits retries (.create reading 10) (loadedRelay 6))).map received =
      (fragments reading 10).map some := by
  refine ((fragments_kept_iff (by decide) (fits_loadedRelay 6)).2.1 retries ?_).mpr ⟨?_, ?_⟩
  · exact ⟨_, List.getLast_mem (List.cons_ne_nil _ _), by decide +kernel⟩
  · decide +kernel
  · decide +kernel

/-- The queue has room for the first ten bytes and not for their message. -/
theorem squeezed_queue_loses_fragment :
    let r := sendDatagram 113 (.create reading 10) (loadedRelay 0)
    Fits reading 10 (loadedRelay 0) ∧ r.1 = .linkFull ∧ r.2.1.part = 1 ∧ r.2.1.i = 10 ∧
      ¬ KeepsFragment 113 (.create reading 10) (loadedRelay 0) ∧
      (queuedBy (visits retries (.create reading 10) (loadedRelay 0))).map received =
        [some (fragmentAt reading 10 1)] := by
  refine ⟨fits_loadedRelay 0, by decide +kernel, by decide +kernel, by decide +kernel, ?_,
    by decide +kernel⟩
  intro hkeeps
  obtain ⟨hpart, -⟩ := hkeeps (by decide +kernel)
  exact absurd hpart (by decide +kernel)

end LoraMultihop.Multihop.Fragments
