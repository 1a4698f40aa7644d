/- digest: The sequences of the fragments that a run of send_datagram calls queues. -/

import LoraMultihop.Foundation.Runs
import LoraMultihop.Foundation.Stamps
import LoraMultihop.Multihop.Fragments

set_option autoImplicit false
set_option relaxedAutoImplicit false

namespace LoraMultihop.Multihop.Sequences

open LoraMultihop.Foundation.ByteMemory (Bytes)
open LoraMultihop.Foundation.Runs (Along foldl_iff_along foldl_keeps)
open LoraMultihop.Foundation.Stamps (Matched Ordered Continues matched_nil matched_snoc_iff)
open LoraMultihop.Link
open LoraMultihop.Multihop.Messages
open LoraMultihop.Multihop.State
open LoraMultihop.Multihop.Sending
open LoraMultihop.Multihop.Fragments
open LoraMultihop.Multihop.Relay (forwardingRelay)

/-- A datagram as its iterator is made. -/
structure Datagram where
  buf : Bytes
  max : UInt16
  pos : 1 ≤ max.toNat

def Datagram.iter (d : Datagram) : DatagramIterator := .create d.buf d.max

/-- A call of `send_datagram`: the datagram, the reading of the clock, and whatever the node has
done since the call before. -/
structure Call (ι : Type) where
  datagram : ι
  stamp : UInt32
  before : Node → Node

/-- The iterators and the node, with all fragments queued so far. -/
structure Sender (ι : Type) where
  iters : ι → DatagramIterator
  node : Node
  queued : List (ι × Message)

section Model

variable {ι : Type} [DecidableEq ι]

def start (datagrams : ι → Datagram) (n : Node) : Sender ι := ⟨fun i => (datagrams i).iter, n, []⟩

def step (s : Sender ι) (c : Call ι) : Sender ι :=
  let n := c.before s.node
  let r := sendDatagram c.stamp (s.iters c.datagram) n
  { iters := Function.update s.iters c.datagram r.2.1
    node := r.2.2
    queued := s.queued ++ (r.2.2.link.tx.drop n.link.tx.length).filterMap fun b =>
      (decodeMsg b).map fun m => (c.datagram, m.1) }

def run (s : Sender ι) (calls : List (Call ι)) : Sender ι := calls.foldl step s

/-- The key of a fragment: its sequence, and the count and part of its header. -/
def fragmentKey (m : Message) : UInt32 × Option (UInt8 × UInt8) :=
  (m.sequence,
    match m.body with
    | .datagram _ count part => some (count, part)
    | _ => none)

def stamps (log : List (ι × Message)) : List (ι × Nat) :=
  log.map fun f => (f.1, f.2.sequence.toNat)

/-- A datagram has one sequence and shares it with no other, and the key tells fragments apart. -/
structure Identified (log : List (ι × Message)) : Prop where
  sequences : Matched (stamps log)
  keys : log.Pairwise fun f g => fragmentKey f.2 ≠ fragmentKey g.2

/-- There is a fragment, and the queue takes its message. -/
def Queues (iter : DatagramIterator) (n : Node) : Prop :=
  n.state.initialized = true ∧ iter.hasNext = true ∧ Room (nextSize iter + 10) n

/-- A call that queues goes on with the datagram of the last fragment within its second, or starts
a datagram in a later one. -/
def InSecond (s : Sender ι) (c : Call ι) : Prop :=
  Queues (s.iters c.datagram) (c.before s.node) →
    Continues (stamps s.queued) (c.datagram, c.stamp.toNat)

end Model

/-- What the calls have made of the iterators: each stands behind the fragments queued of its
datagram, and no part of a datagram is queued twice. -/
structure Standing {ι : Type} (datagrams : ι → Datagram) (s : Sender ι) : Prop where
  place (i : ι) : (s.iters i).hasNext = false ∨
    fragmentCount (datagrams i).buf (datagrams i).max ≤ 255 ∧
      ∃ k, IterAt (datagrams i).buf (datagrams i).max k (s.iters i) ∧
        ∀ f ∈ s.queued, f.1 = i →
          ∃ bytes count part, f.2.body = .datagram bytes count part ∧ part.toNat < k
  parts : s.queued.Pairwise fun f g => f.1 = g.1 → fragmentKey f.2 ≠ fragmentKey g.2

instance (iter : DatagramIterator) (n : Node) : Decidable (Queues iter n) :=
  inferInstanceAs (Decidable (_ ∧ _ ∧ _ ∧ _ ∧ _))

instance {ι : Type} [DecidableEq ι] (s : Sender ι) (c : Call ι) : Decidable (InSecond s c) :=
  inferInstanceAs (Decidable (_ → _))

section Call

variable {iter : DatagramIterator} {n : Node}

private theorem sendDatagram_cases (stamp : UInt32) (iter : DatagramIterator) (n : Node) :
    Queues iter n ∧ sendDatagram stamp iter n =
        (.ok, advanced iter, n.push (fragmentBytes stamp iter n)) ∨
      ¬ Queues iter n ∧ (sendDatagram stamp iter n).2.2 = n ∧
        ((sendDatagram stamp iter n).2.1 = iter ∨
          (sendDatagram stamp iter n).2.1 = { iter with lastMsgSz := 0 } ∨
          iter.hasNext = true ∧ (sendDatagram stamp iter n).2.1 = advanced iter) := by
  cases hi : n.state.initialized with
  | false =>
      rw [sendDatagram_notInit hi]
      exact Or.inr ⟨fun h => absurd (hi.symm.trans h.1) (by simp), rfl, Or.inl rfl⟩
  | true =>
      cases hnext : iter.hasNext with
      | false =>
          rw [sendDatagram_end hi hnext]
          exact Or.inr ⟨fun h => absurd (hnext.symm.trans h.2.1) (by simp), rfl, Or.inl rfl⟩
      | true =>
          by_cases hfull : Queue.txBytesAvailable n.link < nextSize iter
          · rw [sendDatagram_full hi hnext hfull]
            refine Or.inr ⟨?_, rfl, Or.inr (Or.inl rfl)⟩
            rintro ⟨-, -, -, hroom, -⟩
            omega
          · rw [sendDatagram_handed hi hnext (Nat.not_lt.mp hfull)]
            have hlen := fragmentBytes_length stamp iter n
            rw [fragmentBytes] at hlen
            rcases send_cases (fragmentMessage stamp iter n)
              ((iter.buf.drop iter.i).take (nextSize iter)) n with ⟨hrc, hroom, hn⟩ | ⟨-, hroom, hn⟩
            · rw [hlen] at hroom
              refine Or.inl ⟨⟨hi, hnext, hroom⟩, ?_⟩
              rw [hrc, hn, fragmentBytes]
            · rw [hlen] at hroom
              exact Or.inr ⟨fun h => hroom h.2.2, hn, Or.inr (Or.inr ⟨rfl, rfl⟩)⟩

end Call

private theorem start_standing {ι : Type} {datagrams : ι → Datagram} (n : Node) :
    Standing datagrams (start datagrams n) := by
  refine ⟨?_, List.Pairwise.nil⟩
  intro i
  by_cases hcount : fragmentCount (datagrams i).buf (datagrams i).max ≤ 255
  · exact Or.inr ⟨hcount, 0, create_at hcount, fun f hf => absurd hf List.not_mem_nil⟩
  · left
    change (DatagramIterator.create _ _).hasNext = false
    rw [create_eq, if_pos (Nat.not_le.mp hcount)]
    simp [DatagramIterator.hasNext]

section Run

variable {ι : Type} [DecidableEq ι] {datagrams : ι → Datagram} {s : Sender ι} {c : Call ι}

private theorem step_queues (h : Queues (s.iters c.datagram) (c.before s.node)) :
    (step s c).iters = Function.update s.iters c.datagram (advanced (s.iters c.datagram)) ∧
      (step s c).queued = s.queued ++
        [(c.datagram, fragmentMessage c.stamp (s.iters c.datagram) (c.before s.node))] := by
  rcases sendDatagram_cases c.stamp (s.iters c.datagram) (c.before s.node) with
    ⟨-, heq⟩ | ⟨hnot, -⟩
  · rw [step, heq]
    refine ⟨rfl, ?_⟩
    simp [Node.push, fragmentBytes_decodes]
  · exact absurd h hnot

private theorem step_keeps (h : ¬ Queues (s.iters c.datagram) (c.before s.node)) :
    (step s c).queued = s.queued ∧
      ∃ iter, (step s c).iters = Function.update s.iters c.datagram iter ∧
        (iter = s.iters c.datagram ∨ iter = { s.iters c.datagram with lastMsgSz := 0 } ∨
          (s.iters c.datagram).hasNext = true ∧ iter = advanced (s.iters c.datagram)) := by
  rcases sendDatagram_cases c.stamp (s.iters c.datagram) (c.before s.node) with
    ⟨hq, -⟩ | ⟨-, hnode, hiter⟩
  · exact absurd hq h
  · refine ⟨?_, _, rfl, hiter⟩
    rw [step, hnode]
    simp

private theorem run_snoc (s : Sender ι) (calls : List (Call ι)) (c : Call ι) :
    run s (calls ++ [c]) = step (run s calls) c := by
  simp [run]

private theorem Standing.keeps (h : Standing datagrams s)
    (hq : ¬ Queues (s.iters c.datagram) (c.before s.node)) : Standing datagrams (step s c) := by
  obtain ⟨hqueued, iter, hiters, hiter⟩ := step_keeps hq
  refine ⟨?_, by rw [hqueued]; exact h.parts⟩
  intro i
  rw [hiters, hqueued]
  by_cases hi : i = c.datagram
  · rw [hi, Function.update_self]
    have hplace := h.place c.datagram
    rcases hiter with rfl | rfl | ⟨hnext, rfl⟩
    · exact hplace
    · refine hplace.imp id ?_
      rintro ⟨hcount, k, hat, hold⟩
      exact ⟨hcount, k, hat.kept, hold⟩
    · rcases hplace with hend | ⟨hcount, k, hat, hold⟩
      · exact absurd (hend.symm.trans hnext) (by simp)
      · have hpos := (datagrams c.datagram).pos
        refine Or.inr ⟨hcount, k + 1, hat.advanced hpos ((hat.hasNext_iff hpos).mp hnext), ?_⟩
        intro f hf hlabel
        obtain ⟨bytes, count, part, hbody, hlt⟩ := hold f hf hlabel
        exact ⟨bytes, count, part, hbody, Nat.lt_succ_of_lt hlt⟩
  · rw [Function.update_of_ne hi]
    exact h.place i

private theorem Standing.queues (h : Standing datagrams s)
    (hq : Queues (s.iters c.datagram) (c.before s.node)) : Standing datagrams (step s c) := by
  obtain ⟨hiters, hqueued⟩ := step_queues hq
  have hpos := (datagrams c.datagram).pos
  rcases h.place c.datagram with hend | ⟨hcount, k, hat, hold⟩
  · exact absurd (hend.symm.trans hq.2.1) (by simp)
  have hk := (hat.hasNext_iff hpos).mp hq.2.1
  have hpart : (s.iters c.datagram).part.toNat = k := by
    rw [hat.part]
    exact UInt8.toNat_ofNat_of_lt' (by simp only [UInt8.size]; omega)
  refine ⟨?_, ?_⟩
  · intro i
    rw [hiters, hqueued]
    by_cases hi : i = c.datagram
    · rw [hi, Function.update_self]
      refine Or.inr ⟨hcount, k + 1, hat.advanced hpos hk, ?_⟩
      intro f hf hlabel
      rcases List.mem_append.mp hf with hf | hf
      · obtain ⟨bytes, count, part, hbody, hlt⟩ := hold f hf hlabel
        exact ⟨bytes, count, part, hbody, Nat.lt_succ_of_lt hlt⟩
      · rw [List.mem_singleton.mp hf]
        exact ⟨_, _, _, rfl, by omega⟩
    · rw [Function.update_of_ne hi]
      refine (h.place i).imp id ?_
      rintro ⟨hcount, k, hat, hold⟩
      refine ⟨hcount, k, hat, ?_⟩
      intro f hf hlabel
      rcases List.mem_append.mp hf with hf | hf
      · exact hold f hf hlabel
      · rw [List.mem_singleton.mp hf] at hlabel
        exact absurd hlabel.symm hi
  · rw [hqueued]
    apply List.pairwise_append.mpr
    refine ⟨h.parts, List.pairwise_singleton _ _, ?_⟩
    intro f hf g hg hlabel hkey
    rw [List.mem_singleton.mp hg] at hlabel hkey
    obtain ⟨bytes, count, part, hbody, hlt⟩ := hold f hf hlabel
    have hsame := congrArg Prod.snd hkey
    rw [fragmentKey, hbody] at hsame
    injection hsame with hsame
    injection hsame with _ hsame
    rw [hsame, hpart] at hlt
    exact lt_irrefl _ hlt

private theorem run_standing (n : Node) (calls : List (Call ι)) :
    Standing datagrams (run (start datagrams n) calls) := by
  apply foldl_keeps _ (start_standing n)
  intro s c h
  by_cases hq : Queues (s.iters c.datagram) (c.before s.node)
  · exact h.queues hq
  · exact h.keeps hq

/-- The sequences queued are readings of the clock, in its order. -/
private theorem run_ordered (n : Node) {calls : List (Call ι)}
    (hclock : calls.Pairwise fun c d => c.stamp ≤ d.stamp) :
    Ordered (stamps (run (start datagrams n) calls).queued) ∧
      ∀ f ∈ stamps (run (start datagrams n) calls).queued, ∃ c ∈ calls, f.2 = c.stamp.toNat := by
  induction calls using List.reverseRecOn with
  | nil => exact ⟨List.Pairwise.nil, fun f hf => absurd hf List.not_mem_nil⟩
  | append_singleton calls c ih =>
      obtain ⟨hcalls, -, hlast⟩ := List.pairwise_append.mp hclock
      obtain ⟨hordered, hread⟩ := ih hcalls
      have hread' : ∀ f ∈ stamps (run (start datagrams n) calls).queued,
          ∃ d ∈ calls ++ [c], f.2 = d.stamp.toNat := by
        intro f hf
        obtain ⟨d, hd, heq⟩ := hread f hf
        exact ⟨d, List.mem_append_left _ hd, heq⟩
      rw [run_snoc]
      by_cases hq : Queues ((run (start datagrams n) calls).iters c.datagram)
          (c.before (run (start datagrams n) calls).node)
      · rw [(step_queues hq).2, stamps, List.map_append]
        refine ⟨hordered.snoc ?_, ?_⟩
        · intro f hf
          obtain ⟨d, hd, heq⟩ := hread f hf
          rw [heq]
          exact hlast d hd c List.mem_cons_self
        · intro f hf
          rcases List.mem_append.mp hf with hf | hf
          · exact hread' f hf
          · rw [List.mem_singleton.mp hf]
            exact ⟨c, List.mem_append_right _ List.mem_cons_self, rfl⟩
      · rw [(step_keeps hq).1]
        exact ⟨hordered, hread'⟩

private theorem matched_step_iff (n : Node) {calls : List (Call ι)}
    (hclock : (calls ++ [c]).Pairwise fun c d => c.stamp ≤ d.stamp) :
    Matched (stamps (run (start datagrams n) (calls ++ [c])).queued) ↔
      Matched (stamps (run (start datagrams n) calls).queued) ∧
        InSecond (run (start datagrams n) calls) c := by
  obtain ⟨hcalls, -, hlast⟩ := List.pairwise_append.mp hclock
  obtain ⟨hordered, hread⟩ := @run_ordered ι _ datagrams n calls hcalls
  rw [run_snoc, InSecond]
  by_cases hq : Queues ((run (start datagrams n) calls).iters c.datagram)
      (c.before (run (start datagrams n) calls).node)
  · rw [(step_queues hq).2, stamps, List.map_append, forall_prop_of_true hq]
    apply matched_snoc_iff hordered
    intro f hf
    obtain ⟨d, hd, heq⟩ := hread f hf
    rw [heq]
    exact hlast d hd c List.mem_cons_self
  · rw [(step_keeps hq).1]
    exact (and_iff_left fun h => absurd h hq).symm

private theorem matched_iff (n : Node) {calls : List (Call ι)}
    (hclock : calls.Pairwise fun c d => c.stamp ≤ d.stamp) :
    Matched (stamps (run (start datagrams n) calls).queued) ↔
      Along step InSecond (start datagrams n) calls := by
  have hstart : Matched (stamps (start datagrams n).queued) := matched_nil
  refine foldl_iff_along (P := fun s : Sender ι => Matched (stamps s.queued)) hstart ?_
  intro pre c hpre
  exact matched_step_iff n (hclock.sublist hpre.sublist)

/-- Sequences identify datagrams, and keys fragments, exactly if every call that queues goes on
with the last datagram within its second or starts one in a later second. -/
theorem identified_iff (datagrams : ι → Datagram) (n : Node) {calls : List (Call ι)}
    (hclock : calls.Pairwise fun c d => c.stamp ≤ d.stamp) :
    Identified (run (start datagrams n) calls).queued ↔
      Along step InSecond (start datagrams n) calls := by
  rw [← matched_iff n hclock]
  constructor
  · intro h
    exact h.sequences
  · intro h
    refine ⟨h, ?_⟩
    have hstanding := @run_standing ι _ datagrams n calls
    apply List.Pairwise.imp_of_mem _ hstanding.parts
    intro f g hf hg hparts hkey
    have hmatch := h _ (List.mem_map_of_mem hf) _ (List.mem_map_of_mem hg)
    apply hparts (hmatch.mpr _) hkey
    exact congrArg (UInt32.toNat ∘ Prod.fst) hkey

end Run

/-- A datagram of two fragments and two of a single byte. -/
def someDatagrams (i : Fin 3) : Datagram :=
  if i = 0 then ⟨reading, 10, by decide⟩ else ⟨[UInt8.ofNat i.val], 10, by decide⟩

/-- Both fragments of the first datagram in one second, the second datagram in the next. -/
def spacedCalls : List (Call (Fin 3)) := [⟨0, 113, id⟩, ⟨0, 113, id⟩, ⟨1, 114, id⟩]

theorem spaced_calls_identified :
    Identified (run (start someDatagrams forwardingRelay) spacedCalls).queued :=
  (identified_iff someDatagrams forwardingRelay (by decide)).mpr (by decide +kernel)

/-- The two fragments of a datagram with a tick of the clock in between. -/
def overTick : List (Call (Fin 3)) := [⟨0, 113, id⟩, ⟨0, 114, id⟩]

/-- The only fragments of two datagrams in one second. -/
def withinSecond : List (Call (Fin 3)) := [⟨1, 113, id⟩, ⟨2, 113, id⟩]

theorem clock_is_no_key :
    let queued calls := (run (start someDatagrams forwardingRelay) calls).queued
    stamps (queued overTick) = [(0, 113), (0, 114)] ∧
      (queued withinSecond).map (fun f => (f.1, fragmentKey f.2)) =
        [(1, 113, some (1, 0)), (2, 113, some (1, 0))] ∧
      ¬ Identified (queued overTick) ∧ ¬ Identified (queued withinSecond) := by
  intro queued
  have htick : ¬ Matched (stamps (queued overTick)) := by
    intro h
    exact absurd ((h (0, 113) (by decide +kernel) (0, 114) (by decide +kernel)).mp rfl) (by decide)
  have hsecond : ¬ Matched (stamps (queued withinSecond)) := by
    intro h
    exact absurd ((h (1, 113) (by decide +kernel) (2, 113) (by decide +kernel)).mpr rfl) (by decide)
  exact ⟨by decide +kernel, by decide +kernel, fun h => htick h.sequences,
    fun h => hsecond h.sequences⟩

end LoraMultihop.Multihop.Sequences
