/- digest: The records of a trace file, as `decode_trace.py` reads them. -/

import LoraMultihop.Foundation.Fields
import LoraMultihop.Foundation.Readers

set_option autoImplicit false
set_option relaxedAutoImplicit false

namespace LoraMultihop.Trace.Records

open LoraMultihop.Foundation.ByteMemory
open LoraMultihop.Foundation.Fields (leNat_lt)
open LoraMultihop.Foundation.Readers

/-- The exceptions other than EOFError that reading a trace can raise. -/
inductive Raised
  | valueError
  | indexError
  | assertionError
  deriving DecidableEq

abbrev BincodeReader := Cursor UInt8

abbrev Read (α : Type) := Reader UInt8 Raised α

section Reader

def readBytes (n : Nat) : Read Bytes := do
  let self ← get
  if self.data.length < self.pos + n then throw .eof
  else do
    set (self.advance n)
    return (self.data.drop self.pos).take n

/-- `struct.unpack` of an unsigned integer of `n` bytes, lowest first. -/
def readLe (n : Nat) : Read Nat := do
  let bytes ← readBytes n
  return leNat bytes

def readU8 : Read Nat := readLe 1

def readU16Le : Read Nat := readLe 2

def readU32Le : Read Nat := readLe 4

def readU64Le : Read Nat := readLe 8

def readVarint : Read Nat := do
  let first ← readU8
  if first < 251 then return first
  else if first = 251 then readU16Le
  else if first = 252 then readU32Le
  else if first = 253 then readU64Le
  else throw (.other .valueError)

def readVecU8 : Read Bytes := do
  let length ← readVarint
  readBytes length

/-- Bytes that are no UTF-8 text raise a UnicodeDecodeError, which is a ValueError. -/
def readString : Read String := do
  let bytes ← readVecU8
  match String.fromUTF8? ⟨bytes.toArray⟩ with
  | some text => return text
  | none => throw (.other .valueError)

end Reader

structure TraceHeader where
  nodeNames : List String
  channelNames : List String
  timestepCount : Nat
  nodeMaxNj : List (Option Nat)
  deriving DecidableEq

def readMaxNj : Read (Option Nat) := do
  let isSome ← readU8
  if isSome ≠ 0 then do
    let nj ← readVarint
    return some nj
  else return none

def readHeader : Read TraceHeader := do
  let nNodes ← readVarint
  let nodeNames ← times readString nNodes
  let nChannels ← readVarint
  let channelNames ← times readString nChannels
  let timestepCount ← readVarint
  let nMaxNj ← readVarint
  let nodeMaxNj ← times readMaxNj nMaxNj
  return ⟨nodeNames, channelNames, timestepCount, nodeMaxNj⟩

inductive Event
  | messageSent (srcNode channel : Nat) (data : Bytes)
  | messageRecv (dstNode channel : Nat) (data : Bytes) (bitErrors : Nat)
  | messageDropped (srcNode channel reason : Nat)
  deriving DecidableEq

structure Entry where
  timestep : Nat
  event : Event
  deriving DecidableEq

/-- Version 3 added the flag for bit errors. -/
def readBitErrors (version : Nat) : Read Nat := if 3 ≤ version then readU8 else pure 0

/-- The next event; `none` at an event of another kind, where the loop breaks. -/
def readEntry (version : Nat) : Read (Option Entry) := do
  let timestep ← readVarint
  let eventDisc ← readVarint
  if eventDisc = 0 then do
    let srcNode ← readVarint
    let channel ← readVarint
    let data ← readVecU8
    return some ⟨timestep, .messageSent srcNode channel data⟩
  else if eventDisc = 1 then do
    let dstNode ← readVarint
    let channel ← readVarint
    let data ← readVecU8
    let bitErrors ← readBitErrors version
    return some ⟨timestep, .messageRecv dstNode channel data bitErrors⟩
  else if eventDisc = 2 then do
    let srcNode ← readVarint
    let channel ← readVarint
    let reason ← readVarint
    return some ⟨timestep, .messageDropped srcNode channel reason⟩
  else return none

/-- Python's `int`, `none` where it raises a ValueError. -/
abbrev ParseInt := String → Option Int

/-- The CDMA code of a channel index, by the spreading factor in the channel's name. As in a
dictionary the last of several entries for one key counts. -/
def buildCdmaReverseMap (int : ParseInt) (channelNames : List String) :
    Except Raised (Nat → Option Nat) := do
  let sfNums ← channelNames.mapM fun name =>
    match int (name.replace "lora_sf" "") with
    | some sfNum => Except.ok sfNum
    | none => Except.error Raised.valueError
  let sfToIdx (sf : Int) : Option Nat :=
    (List.range sfNums.length).reverse.find? fun i => sfNums[i]? == some sf
  return fun idx => (List.range 7).reverse.find? fun cdmaCode =>
    sfToIdx (cdmaCode % 7 + 6 : Nat) == some idx

/-- A record as the tool prints it; a channel without a code is shown as "?". -/
structure Record where
  ts : Nat
  event : String
  node : String
  nodeIdx : Nat
  channel : String
  channelIdx : Nat
  cdma : Option Nat
  data : Option Bytes
  bitErrors : Option Bool
  reason : Option String
  deriving DecidableEq

/-- `DROP_REASONS`, with the text for a reason that it lacks. -/
def dropReason : Nat → String
  | 0 => "BelowSensitivity"
  | 1 => "PacketLoss"
  | 2 => "TtlExpired"
  | 3 => "BufferFull"
  | reason => "Unknown(" ++ toString reason ++ ")"

/-- The record of an event, with the names that the header gives its node and its channel. -/
def describe (header : TraceHeader) (cdmaMap : Nat → Option Nat) (entry : Entry) :
    Except Raised Record :=
  let record (event : String) (node channel : Nat) (data : Option Bytes)
      (bitErrors : Option Bool) (reason : Option String) : Except Raised Record :=
    match header.nodeNames[node]?, header.channelNames[channel]? with
    | some nodeName, some channelName =>
        .ok ⟨entry.timestep, event, nodeName, node, channelName, channel, cdmaMap channel, data,
          bitErrors, reason⟩
    | _, _ => .error .indexError
  match entry.event with
  | .messageSent srcNode channel data => record "TX" srcNode channel (some data) none none
  | .messageRecv dstNode channel data bitErrors =>
      record "RX" dstNode channel (some data) (some (decide (bitErrors ≠ 0))) none
  | .messageDropped srcNode channel reason =>
      record "DROP" srcNode channel none none (some (dropReason reason))

def MAGIC : Bytes := [78, 88, 84, 82]

/-- What stands in front of the records, and where they start. -/
def readPreamble : Read (Nat × TraceHeader × Nat) := do
  let magic ← readBytes 4
  if magic ≠ MAGIC then throw (.other .assertionError)
  else do
    let version ← readU16Le
    if ¬ (version = 2 ∨ version = 3) then throw (.other .assertionError)
    else do
      let headerLen ← readU32Le
      let reader ← get
      let header ← readHeader
      return (version, header, reader.pos + headerLen)

/-- What `main` has read of a file when it starts to print: the version, the header and the records.
An EOFError in front of the records is raised, one inside them ends them. -/
def readTrace (int : ParseInt) (data : Bytes) :
    Option (Except (Failure Raised) (Nat × TraceHeader × List Record)) :=
  match readPreamble.run ⟨data, 0⟩ with
  | .error e => some (.error e)
  | .ok ((version, header, start), _) =>
      match buildCdmaReverseMap int header.channelNames with
      | .error e => some (.error (.other e))
      | .ok cdmaMap =>
          (collect (readEntry version) (describe header cdmaMap) (data.length + 1)
            ⟨data, start⟩).map fun
            | .error e => .error (.other e)
            | .ok records => .ok (version, header, records)

section Formats

def Le (n : Nat) : Format UInt8 Nat := fun v bs => v < 256 ^ n ∧ bs = leBytes n v

/-- An integer below 251 as one byte, another one in 2, 4 or 8 bytes behind a marker. -/
inductive Varint : Format UInt8 Nat
  | inline {v : Nat} (h : v < 251) : Varint v (leBytes 1 v)
  | u16 {v : Nat} {bs : Bytes} (h : Le 2 v bs) : Varint v (251 :: bs)
  | u32 {v : Nat} {bs : Bytes} (h : Le 4 v bs) : Varint v (252 :: bs)
  | u64 {v : Nat} {bs : Bytes} (h : Le 8 v bs) : Varint v (253 :: bs)

def VecU8 : Format UInt8 Bytes := fun data bs =>
  ∃ length, Varint data.length length ∧ bs = length ++ data

def Text : Format UInt8 String := fun text bs =>
  ∃ data, VecU8 data bs ∧ String.fromUTF8? ⟨data.toArray⟩ = some text

def Vec {α : Type} (G : Format UInt8 α) : Format UInt8 (List α) := fun as bs =>
  ∃ length rest, Varint as.length length ∧ Format.Each G as rest ∧ bs = length ++ rest

/-- A value behind a byte that is not zero, or a zero. -/
inductive MaxNj : Format UInt8 (Option Nat)
  | some {nj : Nat} {b : UInt8} {bs : Bytes} (hb : b ≠ 0) (h : Varint nj bs) :
      MaxNj (some nj) (b :: bs)
  | none : MaxNj none [0]

def Header : Format UInt8 TraceHeader := fun header bs =>
  ∃ nodes channels timesteps maxNj, Vec Text header.nodeNames nodes ∧
    Vec Text header.channelNames channels ∧ Varint header.timestepCount timesteps ∧
      Vec MaxNj header.nodeMaxNj maxNj ∧ bs = nodes ++ (channels ++ (timesteps ++ maxNj))

/-- The flag for bit errors of a version; before version 3 there is none. -/
def BitErrors (version : Nat) : Format UInt8 Nat := fun v bs =>
  if 3 ≤ version then Le 1 v bs else v = 0 ∧ bs = []

/-- What stands behind the timestep and the kind of an event; one of another kind is not read. -/
inductive EntryBody (version timestep : Nat) : Nat → Format UInt8 (Option Entry)
  | sent {srcNode channel : Nat} {data node chan bytes : Bytes} (hnode : Varint srcNode node)
      (hchannel : Varint channel chan) (hdata : VecU8 data bytes) :
      EntryBody version timestep 0 (some ⟨timestep, .messageSent srcNode channel data⟩)
        (node ++ (chan ++ bytes))
  | recv {dstNode channel bitErrors : Nat} {data node chan bytes flag : Bytes}
      (hnode : Varint dstNode node) (hchannel : Varint channel chan) (hdata : VecU8 data bytes)
      (hflag : BitErrors version bitErrors flag) :
      EntryBody version timestep 1 (some ⟨timestep, .messageRecv dstNode channel data bitErrors⟩)
        (node ++ (chan ++ (bytes ++ flag)))
  | dropped {srcNode channel reason : Nat} {node chan why : Bytes} (hnode : Varint srcNode node)
      (hchannel : Varint channel chan) (hreason : Varint reason why) :
      EntryBody version timestep 2 (some ⟨timestep, .messageDropped srcNode channel reason⟩)
        (node ++ (chan ++ why))
  | another {eventDisc : Nat} (h : 3 ≤ eventDisc) : EntryBody version timestep eventDisc none []

/-- An event: its timestep, its kind and what belongs to the kind. -/
def EntryBytes (version : Nat) : Format UInt8 (Option Entry) :=
  Format.Seq Varint fun timestep => Format.Seq Varint (EntryBody version timestep)

/-- The data starts with the magic bytes, a known version, the length of the header and the header;
the records start as far behind the length as it says. -/
def Preamble (data : Bytes) (version : Nat) (header : TraceHeader) (start : Nat) : Prop :=
  ∃ headerLen len bytes rest, (version = 2 ∨ version = 3) ∧ Le 4 headerLen len ∧
    Header header bytes ∧ data = MAGIC ++ (leBytes 2 version ++ (len ++ (bytes ++ rest))) ∧
      start = 10 + headerLen

/-- The data is a trace with these records: behind the preamble there are their events, with the
names of the header, and then nothing, an event that is cut off or one of another kind. -/
def IsTrace (int : ParseInt) (data : Bytes) (version : Nat) (header : TraceHeader)
    (records : List Record) : Prop :=
  ∃ start cdmaMap entries bytes tail, Preamble data version header start ∧
    buildCdmaReverseMap int header.channelNames = .ok cdmaMap ∧
      data.drop start = bytes ++ tail ∧
        Format.Each (fun entry => EntryBytes version (some entry)) entries bytes ∧
          (EntryBytes version).Stops tail ∧
            List.Forall₂ (fun entry record => describe header cdmaMap entry = .ok record) entries
              records

end Formats

section Exact

private theorem readBytes_run (n : Nat) (c : BincodeReader) : (readBytes n).run c =
    if c.data.length < c.pos + n then .error .eof else .ok (c.rest.take n, c.advance n) := by
  rw [readBytes]
  change StateT.run (if c.data.length < c.pos + n then _ else _) c = _
  split_ifs <;> rfl

private theorem accepts_readBytes (n : Nat) :
    Accepts (readBytes n) fun data bs => data.length = n ∧ bs = data := by
  intro c hc data c'
  have hlen : c.rest.length = c.data.length - c.pos := List.length_drop
  rw [Cursor.Within] at hc
  rw [readBytes_run]
  constructor
  · intro h
    split_ifs at h with hshort
    cases h
    refine ⟨c.rest.take n, ⟨?_, rfl⟩, List.take_prefix n c.rest, ?_⟩ <;>
      rw [List.length_take, Nat.min_eq_left (by omega)]
  · rintro ⟨bs, ⟨hn, rfl⟩, hpre, rfl⟩
    have hle := hpre.length_le
    rw [if_neg (by omega), ← hn, List.prefix_iff_eq_take.mp hpre]
    simp

private theorem reads_readBytes (n : Nat) :
    Reads (readBytes n) fun data bs => data.length = n ∧ bs = data := by
  refine ⟨⟨accepts_readBytes n, fun c hc => ?_⟩, List.replicate n 0, _, List.length_replicate, rfl⟩
  have hlen : c.rest.length = c.data.length - c.pos := List.length_drop
  rw [Cursor.Within] at hc
  rw [readBytes_run]
  constructor
  · intro h
    split_ifs at h with hshort
    refine ⟨c.rest ++ List.replicate (n - c.rest.length) 0, List.replicate (n - c.rest.length) 0,
      ?_, ?_, rfl⟩
    · rw [Ne, List.replicate_eq_nil_iff]
      omega
    · rw [List.length_append, List.length_replicate]
      omega
  · rintro ⟨data, more, hmore, hn, rfl⟩
    have hpos := List.length_pos_iff.mpr hmore
    rw [List.length_append] at hn
    rw [if_pos (by omega)]

private theorem le_iff {n v : Nat} {bs : Bytes} : Le n v bs ↔ bs.length = n ∧ v = leNat bs := by
  constructor
  · rintro ⟨hlt, rfl⟩
    exact ⟨leBytes_length n v, (leNat_leBytes_of_lt hlt).symm⟩
  · rintro ⟨rfl, rfl⟩
    exact ⟨leNat_lt bs, (leBytes_leNat bs).symm⟩

private theorem le_seq {n v : Nat} {bs : Bytes} :
    Format.Seq (fun data bs => data.length = n ∧ bs = data)
      (fun data w rest => w = leNat data ∧ rest = []) v bs ↔ Le n v bs := by
  rw [le_iff]
  constructor
  · rintro ⟨data, _, _, ⟨hn, rfl⟩, ⟨rfl, rfl⟩, rfl⟩
    rw [List.append_nil]
    exact ⟨hn, rfl⟩
  · rintro ⟨hn, rfl⟩
    exact ⟨bs, bs, [], ⟨hn, rfl⟩, ⟨rfl, rfl⟩, (List.append_nil bs).symm⟩

private theorem reads_readLe (n : Nat) : Reads (readLe n) (Le n) :=
  ((reads_readBytes n).bind fun data => reads_pure (leNat data)).congr fun _ _ => le_seq

/-- What stands behind the first byte of an integer. -/
def VarintRest (first : Nat) : Format UInt8 Nat := fun v bs =>
  first < 251 ∧ v = first ∧ bs = [] ∨ first = 251 ∧ Le 2 v bs ∨ first = 252 ∧ Le 4 v bs ∨
    first = 253 ∧ Le 8 v bs

private theorem le_one {v : Nat} {bs : Bytes} : Le 1 v bs ↔ ∃ b :
    UInt8, v = b.toNat ∧ bs = [b] := by
  rw [le_iff]
  constructor
  · rintro ⟨hlen, rfl⟩
    obtain ⟨b, rfl⟩ := List.length_eq_one_iff.mp hlen
    exact ⟨b, by simp [leNat], rfl⟩
  · rintro ⟨b, rfl, rfl⟩
    exact ⟨rfl, by simp [leNat]⟩

private theorem varint_seq {v : Nat} {bs : Bytes} : (Le 1).Seq VarintRest v bs ↔ Varint v bs := by
  constructor
  · rintro ⟨first, _, rest, hfirst, hrest, rfl⟩
    obtain ⟨b, rfl, rfl⟩ := le_one.mp hfirst
    have hbyte {n : Nat} (hn : n < 256) (h : b.toNat = n) : b = UInt8.ofNat n := by
      rw [← h, UInt8.ofNat_toNat]
    rcases hrest with ⟨hlt, rfl, rfl⟩ | ⟨h, hle⟩ | ⟨h, hle⟩ | ⟨h, hle⟩
    · have hone := Varint.inline hlt
      rwa [hfirst.2.symm] at hone
    · exact hbyte (by decide) h ▸ Varint.u16 hle
    · exact hbyte (by decide) h ▸ Varint.u32 hle
    · exact hbyte (by decide) h ▸ Varint.u64 hle
  · intro h
    cases h with
    | inline h =>
        exact ⟨v, _, [], ⟨by omega, rfl⟩, Or.inl ⟨h, rfl, rfl⟩, (List.append_nil _).symm⟩
    | @u16 _ bs h =>
        exact ⟨251, [251], bs, ⟨by decide, rfl⟩, Or.inr (Or.inl ⟨rfl, h⟩), rfl⟩
    | @u32 _ bs h =>
        exact ⟨252, [252], bs, ⟨by decide, rfl⟩, Or.inr (Or.inr (Or.inl ⟨rfl, h⟩)), rfl⟩
    | @u64 _ bs h =>
        exact ⟨253, [253], bs, ⟨by decide, rfl⟩, Or.inr (Or.inr (Or.inr ⟨rfl, h⟩)), rfl⟩

private theorem tracks_varintRest (first : Nat) : Tracks
    (if first < 251 then return first
      else if first = 251 then readU16Le
      else if first = 252 then readU32Le
      else if first = 253 then readU64Le
      else throw (.other .valueError)) (VarintRest first) := by
  refine Tracks.ite (fun h => ?_) fun h₀ => Tracks.ite (fun h => ?_) fun h₁ =>
    Tracks.ite (fun h => ?_) fun h₂ => Tracks.ite (fun h => ?_) fun h₃ => ?_
  · exact (tracks_pure first).congr fun v bs => by grind [VarintRest]
  · exact (reads_readLe 2).toTracks.congr fun v bs => by grind [VarintRest]
  · exact (reads_readLe 4).toTracks.congr fun v bs => by grind [VarintRest]
  · exact (reads_readLe 8).toTracks.congr fun v bs => by grind [VarintRest]
  · exact (tracks_throw _).congr fun v bs => by grind [VarintRest]

private theorem reads_readVarint : Reads readVarint Varint := by
  refine ⟨((reads_readLe 1).toTracks.bind tracks_varintRest ?_).congr fun _ _ => varint_seq, 0, _,
    .inline (by decide)⟩
  -- Cut off inside one byte there is nothing, and a zero can follow.
  rintro bs ⟨first, more, hmore, hfirst⟩
  have hlen := List.length_append ▸ (le_iff.mp hfirst).1
  have hpos := List.length_pos_iff.mpr hmore
  obtain rfl := List.length_eq_zero_iff.mp (show bs.length = 0 by omega)
  exact ⟨0, [0], by simp, ⟨by decide, rfl⟩, 0, [], Or.inl ⟨by decide, rfl, rfl⟩⟩

private theorem reads_readVecU8 : Reads readVecU8 VecU8 := by
  refine (reads_readVarint.bind reads_readBytes).congr fun data bs => ⟨?_, ?_⟩
  · rintro ⟨n, length, _, hlength, ⟨rfl, rfl⟩, rfl⟩
    exact ⟨length, hlength, rfl⟩
  · rintro ⟨length, hlength, rfl⟩
    exact ⟨data.length, length, data, hlength, ⟨rfl, rfl⟩, rfl⟩

private theorem reads_readBitErrors (version : Nat) :
    Reads (readBitErrors version) (BitErrors version) := by
  refine Reads.ite (fun h => ?_) fun h => ?_
  · exact (reads_readLe 1).congr fun v bs => by rw [BitErrors, if_pos h]
  · exact (reads_pure 0).congr fun v bs => by rw [BitErrors, if_neg h]

private theorem reads_readEntry (version : Nat) :
    Reads (readEntry version) (EntryBytes version) := by
  refine reads_readVarint.bind fun timestep => reads_readVarint.bind fun eventDisc => ?_
  refine Reads.ite (fun h => ?_) fun h₀ => Reads.ite (fun h => ?_) fun h₁ =>
    Reads.ite (fun h => ?_) fun h₂ => ?_
  · subst h
    refine (reads_readVarint.bind fun srcNode => reads_readVarint.bind fun channel =>
      reads_readVecU8.bind fun data => reads_pure _).congr fun entry bs => ⟨?_, ?_⟩
    · rintro ⟨_, _, _, hnode, ⟨_, _, _, hchannel, ⟨_, _, _, hdata, ⟨rfl, rfl⟩, rfl⟩, rfl⟩, rfl⟩
      rw [List.append_nil]
      exact .sent hnode hchannel hdata
    · intro h
      cases h with
      | sent hnode hchannel hdata =>
          exact ⟨_, _, _, hnode, ⟨_, _, _, hchannel, ⟨_, _, [], hdata, ⟨rfl, rfl⟩,
            (List.append_nil _).symm⟩, rfl⟩, rfl⟩
      | another h => exact absurd h (by decide)
  · subst h
    refine (reads_readVarint.bind fun dstNode => reads_readVarint.bind fun channel =>
      reads_readVecU8.bind fun data => (reads_readBitErrors version).bind fun bitErrors =>
        reads_pure _).congr fun entry bs => ⟨?_, ?_⟩
    · rintro ⟨_, _, _, hnode, ⟨_, _, _, hchannel, ⟨_, _, _, hdata,
        ⟨_, _, _, hflag, ⟨rfl, rfl⟩, rfl⟩, rfl⟩, rfl⟩, rfl⟩
      rw [List.append_nil]
      exact .recv hnode hchannel hdata hflag
    · intro h
      cases h with
      | recv hnode hchannel hdata hflag =>
          exact ⟨_, _, _, hnode, ⟨_, _, _, hchannel, ⟨_, _, _, hdata, ⟨_, _, [], hflag,
            ⟨rfl, rfl⟩, (List.append_nil _).symm⟩, rfl⟩, rfl⟩, rfl⟩
      | another h => exact absurd h (by decide)
  · subst h
    refine (reads_readVarint.bind fun srcNode => reads_readVarint.bind fun channel =>
      reads_readVarint.bind fun reason => reads_pure _).congr fun entry bs => ⟨?_, ?_⟩
    · rintro ⟨_, _, _, hnode, ⟨_, _, _, hchannel, ⟨_, _, _, hreason, ⟨rfl, rfl⟩, rfl⟩, rfl⟩, rfl⟩
      rw [List.append_nil]
      exact .dropped hnode hchannel hreason
    · intro h
      cases h with
      | dropped hnode hchannel hreason =>
          exact ⟨_, _, _, hnode, ⟨_, _, _, hchannel, ⟨_, _, [], hreason, ⟨rfl, rfl⟩,
            (List.append_nil _).symm⟩, rfl⟩, rfl⟩
      | another h => exact absurd h (by decide)
  · refine (reads_pure none).congr fun entry bs => ⟨?_, ?_⟩
    · rintro ⟨rfl, rfl⟩
      exact .another (by omega)
    · intro h
      cases h with
      | sent => exact absurd rfl h₀
      | recv => exact absurd rfl h₁
      | dropped => exact absurd rfl h₂
      | another => exact ⟨rfl, rfl⟩

private theorem accepts_readString : Accepts readString Text := by
  refine (reads_readVecU8.accepts.bind (H := fun data text bs =>
    String.fromUTF8? ⟨data.toArray⟩ = some text ∧ bs = []) fun data => ?_).congr
      fun text bs => ⟨?_, ?_⟩
  · cases h : String.fromUTF8? ⟨data.toArray⟩ with
    | none => exact (accepts_throw _).congr fun text bs => by simp
    | some text => exact (accepts_pure text).congr fun text' bs => by simp [eq_comm]
  · rintro ⟨data, _, _, hdata, ⟨htext, rfl⟩, rfl⟩
    rw [List.append_nil]
    exact ⟨data, hdata, htext⟩
  · rintro ⟨data, hdata, htext⟩
    exact ⟨data, bs, [], hdata, ⟨htext, rfl⟩, (List.append_nil bs).symm⟩

private theorem accepts_readMaxNj : Accepts readMaxNj MaxNj := by
  refine ((reads_readLe 1).accepts.bind (H := fun isSome nj bs => isSome ≠ 0 ∧ (∃ v, Varint v bs ∧
    nj = some v) ∨ isSome = 0 ∧ nj = none ∧ bs = []) fun isSome => ?_).congr fun nj bs => ⟨?_, ?_⟩
  · split_ifs with h
    · refine (reads_readVarint.accepts.bind fun nj => accepts_pure (some nj)).congr
        fun nj bs => ⟨?_, ?_⟩
      · rintro ⟨v, _, _, hv, ⟨rfl, rfl⟩, rfl⟩
        rw [List.append_nil]
        exact Or.inl ⟨h, v, hv, rfl⟩
      · rintro (⟨-, v, hv, rfl⟩ | ⟨hzero, -⟩)
        · exact ⟨v, bs, [], hv, ⟨rfl, rfl⟩, (List.append_nil bs).symm⟩
        · exact absurd hzero h
    · exact (accepts_pure none).congr fun nj bs => by simp [not_not.mp h]
  · rintro ⟨isSome, _, rest, hsome, hrest, rfl⟩
    obtain ⟨b, rfl, rfl⟩ := le_one.mp hsome
    rcases hrest with ⟨hne, v, hv, rfl⟩ | ⟨hzero, rfl, rfl⟩
    · refine .some (fun hb => hne ?_) hv
      rw [hb]
      rfl
    · obtain rfl : b = 0 := UInt8.toNat_inj.mp hzero
      exact .none
  · intro h
    cases h with
    | @some nj b bs hb hnj =>
        refine ⟨b.toNat, [b], bs, le_one.mpr ⟨b, rfl, rfl⟩,
          Or.inl ⟨fun hzero => hb ?_, nj, hnj, rfl⟩, rfl⟩
        exact UInt8.toNat_inj.mp hzero
    | none => exact ⟨0, [0], [], ⟨by decide, rfl⟩, Or.inr ⟨rfl, rfl, rfl⟩, rfl⟩

private theorem accepts_readHeader : Accepts readHeader Header := by
  have hn := reads_readVarint.accepts
  refine (hn.bind fun nNodes => (accepts_readString.times nNodes).bind fun nodeNames =>
    hn.bind fun nChannels => (accepts_readString.times nChannels).bind fun channelNames =>
      hn.bind fun timestepCount => hn.bind fun nMaxNj => (accepts_readMaxNj.times nMaxNj).bind
        fun nodeMaxNj => accepts_pure _).congr fun header bs => ⟨?_, ?_⟩
  · rintro ⟨_, _, _, hnodes, ⟨_, _, _, ⟨rfl, hnodes'⟩, ⟨_, _, _, hchannels, ⟨_, _, _,
      ⟨rfl, hchannels'⟩, ⟨_, _, _, htimesteps, ⟨_, _, _, hmax, ⟨_, _, _, ⟨rfl, hmax'⟩,
        ⟨rfl, rfl⟩, rfl⟩, rfl⟩, rfl⟩, rfl⟩, rfl⟩, rfl⟩, rfl⟩
    exact ⟨_, _, _, _, ⟨_, _, hnodes, hnodes', rfl⟩, ⟨_, _, hchannels, hchannels', rfl⟩, htimesteps,
      ⟨_, _, hmax, hmax', rfl⟩, by simp only [List.append_assoc, List.append_nil]⟩
  · rintro ⟨_, _, _, _, ⟨_, _, hnodes, hnodes', rfl⟩, ⟨_, _, hchannels, hchannels', rfl⟩,
      htimesteps, ⟨_, _, hmax, hmax', rfl⟩, rfl⟩
    exact ⟨_, _, _, hnodes, ⟨_, _, _, ⟨rfl, hnodes'⟩, ⟨_, _, _, hchannels, ⟨_, _, _,
      ⟨rfl, hchannels'⟩, ⟨_, _, _, htimesteps, ⟨_, _, _, hmax, ⟨_, _, [], ⟨rfl, hmax'⟩,
        ⟨rfl, rfl⟩, rfl⟩, rfl⟩, rfl⟩, rfl⟩, rfl⟩, rfl⟩,
          by simp only [List.append_assoc, List.append_nil]⟩

private theorem readPreamble_iff {data : Bytes} {version : Nat} {header : TraceHeader}
    {start : Nat} : (∃ c', readPreamble.run ⟨data, 0⟩ = .ok ((version, header, start), c')) ↔
      Preamble data version header start := by
  have hc : Cursor.Within ⟨data, 0⟩ := Nat.zero_le _
  constructor
  · rintro ⟨c', h⟩
    obtain ⟨magic, c₁, hmagic, h⟩ := run_bind_ok.mp h
    obtain ⟨_, rest₁, ⟨-, rfl⟩, hdata, hrest₁, hc₁, rfl⟩ := (accepts_readBytes 4).of_run hc hmagic
    split_ifs at h with hne
    · cases h
    obtain rfl := not_not.mp hne
    obtain ⟨version', c₂, hversion, h⟩ := run_bind_ok.mp h
    obtain ⟨ver, rest₂, ⟨-, rfl⟩, hver, hrest₂, hc₂, rfl⟩ :=
      (reads_readLe 2).accepts.of_run hc₁ hversion
    by_cases hknown : version' = 2 ∨ version' = 3
    swap
    · rw [if_pos hknown] at h
      cases h
    rw [if_neg (not_not.mpr hknown)] at h
    obtain ⟨headerLen, c₃, hread, h⟩ := run_bind_ok.mp h
    obtain ⟨len, rest₃, hlen, hlens, hrest₃, hc₃, rfl⟩ :=
      (reads_readLe 4).accepts.of_run hc₂ hread
    obtain ⟨reader, c₄, hget, h⟩ := run_bind_ok.mp h
    cases hget
    obtain ⟨header', c₅, hheader, h⟩ := run_bind_ok.mp h
    obtain ⟨bytes, rest, hbytes, hrest, -, -, -⟩ := accepts_readHeader.of_run hc₃ hheader
    cases h
    refine ⟨headerLen, len, bytes, rest, hknown, hlen, hbytes, ?_, ?_⟩
    · rw [← hrest, hrest₃, ← hlens, hrest₂, ← hver, hrest₁, ← hdata]
      rfl
    · change 0 + MAGIC.length + (leBytes 2 version).length + len.length + headerLen = _
      rw [leBytes_length, hlen.2, leBytes_length]
      rfl
  · rintro ⟨headerLen, _, bytes, rest, hknown, ⟨hlt, rfl⟩, hbytes, rfl, rfl⟩
    have hversion : version < 256 ^ 2 := by omega
    obtain ⟨c₁, hmagic, hc₁, hrest₁, hpos₁⟩ := (accepts_readBytes 4).run_of hc ⟨rfl, rfl⟩ rfl
    obtain ⟨c₂, hread, hc₂, hrest₂, hpos₂⟩ :=
      (reads_readLe 2).accepts.run_of hc₁ ⟨hversion, rfl⟩ hrest₁
    obtain ⟨c₃, hlen, hc₃, hrest₃, hpos₃⟩ :=
      (reads_readLe 4).accepts.run_of hc₂ ⟨hlt, rfl⟩ hrest₂
    obtain ⟨c₄, hheader, -, -, -⟩ := accepts_readHeader.run_of hc₃ hbytes hrest₃
    have hstart : c₃.pos = 10 := by
      rw [hpos₃, hpos₂, hpos₁, leBytes_length, leBytes_length]
      rfl
    refine ⟨c₄, run_bind_ok.mpr ⟨MAGIC, c₁, hmagic, ?_⟩⟩
    rw [if_neg (not_not.mpr rfl)]
    refine run_bind_ok.mpr ⟨version, c₂, hread, ?_⟩
    rw [if_neg (not_not.mpr hknown)]
    refine run_bind_ok.mpr ⟨headerLen, c₃, hlen, run_bind_ok.mpr ⟨c₃, c₃, rfl, ?_⟩⟩
    refine run_bind_ok.mpr ⟨header, c₄, hheader, ?_⟩
    rw [hstart]
    rfl

private theorem entryBytes_long (version : Nat) (entry : Option Entry) (bs : Bytes)
    (h : EntryBytes version entry bs) : bs ≠ [] := by
  obtain ⟨timestep, time, rest, htime, -, rfl⟩ := h
  intro hnil
  have htime' : time = [] := (List.append_eq_nil_iff.mp hnil).1
  cases htime <;> cases htime'

end Exact

/-- The tool reads a file as a trace with these records exactly if it is one: it takes neither more
nor less than the format says, and of a file that breaks off it keeps every whole record. -/
theorem readTrace_iff (int : ParseInt) (data : Bytes) (version : Nat) (header : TraceHeader)
    (records : List Record) : readTrace int data = some (.ok (version, header, records)) ↔
      IsTrace int data version header records := by
  have hcollect (version start : Nat) (header : TraceHeader) (cdmaMap : Nat → Option Nat)
      (records : List Record) :
      collect (readEntry version) (describe header cdmaMap) (data.length + 1) ⟨data, start⟩ =
          some (.ok records) ↔
        ∃ entries bytes tail, data.drop start = bytes ++ tail ∧
          Format.Each (fun entry => EntryBytes version (some entry)) entries bytes ∧
            (EntryBytes version).Stops tail ∧
              List.Forall₂ (fun entry record => describe header cdmaMap entry = .ok record) entries
                records := by
    apply collect_ok_iff (reads_readEntry version).toTracks
    · exact fun entry => entryBytes_long version (some entry)
    · exact Nat.lt_succ_of_le (List.drop_sublist start data).length_le
  constructor
  · intro h
    rw [readTrace] at h
    cases hrun : readPreamble.run ⟨data, 0⟩ with
    | error e =>
        rw [hrun] at h
        exact absurd h (by simp)
    | ok r =>
        obtain ⟨⟨version', header', start⟩, c'⟩ := r
        rw [hrun] at h
        dsimp only at h
        cases hmap : buildCdmaReverseMap int header'.channelNames with
        | error e =>
            rw [hmap] at h
            exact absurd h (by simp)
        | ok cdmaMap =>
            rw [hmap] at h
            obtain ⟨result, hresult, heq⟩ := Option.map_eq_some_iff.mp h
            cases result with
            | error e => cases heq
            | ok records' =>
                cases heq
                obtain ⟨entries, bytes, tail, hdata, hrest⟩ := (hcollect ..).mp hresult
                exact ⟨start, cdmaMap, entries, bytes, tail, readPreamble_iff.mp ⟨c', hrun⟩, hmap,
                  hdata, hrest⟩
  · rintro ⟨start, cdmaMap, entries, bytes, tail, hpreamble, hmap, hdata, hrest⟩
    obtain ⟨c', hrun⟩ := readPreamble_iff.mpr hpreamble
    rw [readTrace, hrun]
    dsimp only
    rw [hmap]
    dsimp only
    rw [(hcollect ..).mpr ⟨entries, bytes, tail, hdata, hrest⟩]
    rfl

end LoraMultihop.Trace.Records
