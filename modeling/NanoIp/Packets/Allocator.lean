import NanoIp.Core.Types
import NanoIp.Lib.Pool
import NanoIp.Lib.Run
import Mathlib.Data.Sigma.Basic

/-!
# The packet allocator

Buffers of two sizes, each size with its descriptors in a list of free and a list of used
ones. A small packet takes a big buffer when no small one is free, and its release looks
for the buffer in both classes.
-/
namespace NanoIp.Allocator

/-- The classes of buffers. -/
inductive Class where
  | big | small
  deriving DecidableEq

/-- The part of `big_small_packet_allocator_data_t` that the application fills. -/
structure Config where
  bigBufferSize : BitVec 16
  bigBuffersCount : BitVec 16
  smallBufferSize : BitVec 16
  smallBuffersCount : BitVec 16

def Config.bufferSize (g : Config) : Class → BitVec 16
  | .big => g.bigBufferSize
  | .small => g.smallBufferSize

def Config.buffersCount (g : Config) : Class → BitVec 16
  | .big => g.bigBuffersCount
  | .small => g.smallBuffersCount

/-- What the application must see to. -/
structure Config.Valid (g : Config) : Prop where
  count : ∀ c, 0 < (g.buffersCount c).toNat
  sizes : g.smallBufferSize ≤ g.bigBufferSize
  fits : ∀ c, (g.buffersCount c).toNat * (g.bufferSize c).toNat < 2 ^ 31

/-- A descriptor of one of the two arrays. -/
abbrev Desc (g : Config) := (c : Class) × Fin (g.buffersCount c).toNat

/-- A place in `big_buffers` or `small_buffers`. -/
structure Pointer where
  array : Class
  offset : Int
  deriving DecidableEq

variable {g : Config}

/-- The fields of `nano_ip_net_packet_t` that the allocator fills. -/
structure PacketInfo (g : Config) where
  data : Option Pointer
  current : Option Pointer
  size : BitVec 16
  count : BitVec 16
  flags : BitVec 32
  allocatorData : Option (Desc g)
  netIf : Option NetIf

/-- `big_small_buffer_desc_t`. -/
structure Buffer (g : Config) where
  data : Pointer
  packet : PacketInfo g
  next : Option (Desc g)

/-- The lists of `big_small_packet_allocator_internal_data_t` and the descriptors. -/
structure State (g : Config) where
  free : Class → Option (Desc g)
  used : Class → Option (Desc g)
  mem : Desc g → Buffer g

/-- `&buffers[i * buffer_size]`; the product is of type `int`. -/
def pointer (d : Desc g) : Pointer :=
  ⟨d.1, (BitVec.ofNat 32 d.2 * (g.bufferSize d.1).zeroExtend 32).toInt⟩

/-- The descriptor behind another one; the last one's pointer is set to `NULL`. -/
def following (d : Desc g) : Option (Desc g) :=
  if h : d.2.1 + 1 < (g.buffersCount d.1).toNat then some ⟨d.1, d.2.1 + 1, h⟩ else none

/-- `NANO_IP_BIG_SMALL_PACKET_ALLOCATOR_Init` on descriptors whose packets it does not touch. -/
def init (mem : Desc g → Buffer g) : State g where
  free c := if h : 0 < (g.buffersCount c).toNat then some ⟨c, 0, h⟩ else none
  used _ := none
  mem d := { data := pointer d, packet := (mem d).packet, next := following d }

/-- `NANO_IP_BIG_SMALL_PACKET_ALLOCATOR_AllocateBuffer`. -/
def allocateBuffer (s : State g) (c : Class) : Option (State g × Desc g) :=
  match s.free c with
  | none => none
  | some a =>
    some ({ free := Function.update s.free c (s.mem a).next
            used := Function.update s.used c (some a)
            mem := Function.update s.mem a { s.mem a with next := s.used c } }, a)

/-- `Check requested size`. -/
def chooseBuffer (s : State g) (size : BitVec 16) : Except Err (State g × Desc g) :=
  if size ≤ g.smallBufferSize then
    match allocateBuffer s .small with
    | some r => .ok r
    | none =>
      match allocateBuffer s .big with
      | some r => .ok r
      | none => .error .resource
  else if size ≤ g.bigBufferSize then
    match allocateBuffer s .big with
    | some r => .ok r
    | none => .error .resource
  else .error .packetTooBig

/-- `Fill packet information`. -/
def State.fill (s : State g) (a : Desc g) (size : BitVec 16) : State g :=
  { s with mem := Function.update s.mem a { s.mem a with
      packet := ⟨some (s.mem a).data, some (s.mem a).data, size, 0#16, 0#32, some a, none⟩ } }

/-- `NANO_IP_BIG_SMALL_PACKET_ALLOCATOR_Allocate`; the packet is that of the descriptor. -/
def allocate (s : State g) (size : BitVec 16) : State g × Except Err (Desc g) :=
  match chooseBuffer s size with
  | .error e => (s, .error e)
  | .ok (s, a) => (s.fill a size, .ok a)

def State.usedBuffers (s : State g) (c : Class) : List (Desc g) :=
  Lib.chain (fun d => (s.mem d).next) (g.buffersCount c).toNat (s.used c)

/-- `Remove the buffer from the used buffers list`, through the one before it. -/
def State.removeUsed (s : State g) (c : Class) (prev : Option (Desc g)) (a : Desc g) : State g :=
  match prev with
  | some p => { s with mem := Function.update s.mem p { s.mem p with next := (s.mem a).next } }
  | none => { s with used := Function.update s.used c (s.mem a).next }

/-- `Add the buffer to the free buffers list`. -/
def State.addFree (s : State g) (c : Class) (a : Desc g) : State g :=
  { s with
    free := Function.update s.free c (some a)
    mem := Function.update s.mem a { s.mem a with next := s.free c } }

/-- `NANO_IP_BIG_SMALL_PACKET_ALLOCATOR_ReleaseBuffer`, if it finds the buffer. -/
def releaseBuffer (s : State g) (buffer : Option (Desc g)) (c : Class) : Option (State g) :=
  match buffer with
  | none => none
  | some a => (Lib.findPrev a none (s.usedBuffers c)).map fun prev =>
      (s.removeUsed c prev a).addFree c a

/-- `NANO_IP_BIG_SMALL_PACKET_ALLOCATOR_Release` of the packet of a descriptor. -/
def release (s : State g) (d : Desc g) : State g × Err :=
  let packet := (s.mem d).packet
  if packet.data = none then (s, .invalidArg)
  else if packet.size ≤ g.smallBufferSize then
    match releaseBuffer s packet.allocatorData .small with
    | some s => (s, .success)
    | none =>
      match releaseBuffer s packet.allocatorData .big with
      | some s => (s, .success)
      | none => (s, .packetNotFound)
  else if packet.size ≤ g.bigBufferSize then
    match releaseBuffer s packet.allocatorData .big with
    | some s => (s, .success)
    | none => (s, .packetNotFound)
  else (s, .packetTooBig)

def State.setFlags (s : State g) (d : Desc g) (flags : BitVec 32) : State g :=
  { s with
    mem := Function.update s.mem d
      { s.mem d with packet := { (s.mem d).packet with flags := flags } } }

/-- What is done to the allocator. -/
inductive Input (g : Config) where
  | allocate (size : BitVec 16)
  | release (d : Desc g)

def step (s : State g) : Input g → Option (State g)
  | .allocate size => some (allocate s size).1
  | .release d => some (release s d).1

/-- The packets that are allocated, with the sizes they were requested with, and those that
have ever been. -/
structure Ledger (g : Config) where
  held : List (Desc g × BitVec 16)
  ever : List (Desc g)

def see (ledger : Ledger g) (s : State g) (i : Input g) (_ : State g) : Ledger g :=
  match i with
  | .allocate size =>
    match (allocate s size).2 with
    | .ok d => ⟨(d, size) :: ledger.held, d :: ledger.ever⟩
    | .error _ => ledger
  | .release d =>
    if (release s d).2 = .success then
      { ledger with held := ledger.held.filter fun h => h.1 ≠ d } else ledger

/-- A packet is allocated. -/
def Ledger.Holds (ledger : Ledger g) (d : Desc g) : Prop := d ∈ ledger.held.map Prod.fst

/-- The lists of a class: every descriptor of the class stands in exactly one of them, once. -/
structure Lists (s : State g) (c : Class) (f u : List (Desc g)) : Prop where
  pooled : Lib.Pooled (fun d => (s.mem d).next) (s.free c) (s.used c) f u
  each : ∀ d : Desc g, d ∈ f ++ u ↔ d.1 = c

/-- Two buffers share a byte. -/
def Overlap (g : Config) (p q : Pointer) : Prop :=
  p.array = q.array ∧ p.offset < q.offset + (g.bufferSize q.array).toNat ∧
    q.offset < p.offset + (g.bufferSize p.array).toNat

/-- A buffer lies within its array. -/
def Within (g : Config) (p : Pointer) : Prop :=
  0 ≤ p.offset ∧ p.offset + (g.bufferSize p.array).toNat ≤ (g.buffersCount p.array).toNat *
    (g.bufferSize p.array).toNat

/-- What holds of the allocator at any time. -/
structure Sound (x : State g × Ledger g) : Prop where
  lists : ∀ c, ∃ f u, Lists x.1 c f u ∧ ∀ d, d.1 = c → (d ∈ u ↔ x.2.Holds d)
  once : (x.2.held.map Prod.fst).Nodup
  buffers : ∀ h ∈ x.2.held, ∃ p, (x.1.mem h.1).packet.data = some p ∧
    (x.1.mem h.1).packet.size = h.2 ∧
    h.2 ≤ g.bufferSize p.array ∧ Within g p
  apart : ∀ d d' p p', x.2.Holds d → x.2.Holds d' → d ≠ d' → (x.1.mem d).packet.data = some p →
    (x.1.mem d').packet.data = some p' → ¬ Overlap g p p'
  fails : ∀ size, (∃ e, (allocate x.1 size).2 = .error e) ↔
    g.bigBufferSize < size ∨ ∀ d : Desc g, size ≤ g.bufferSize d.1 → x.2.Holds d
  released : ∀ d, x.2.Holds d → (release x.1 d).2 = .success
  refused : ∀ d, ¬ x.2.Holds d →
    release x.1 d = (x.1, if d ∈ x.2.ever then .packetNotFound else .invalidArg)

end NanoIp.Allocator
