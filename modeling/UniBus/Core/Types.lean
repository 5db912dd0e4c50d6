import Mathlib.Tactic

/-!
# Shared types of the bus

Time, error values, verbs, permissions, and the small records that the tables and
the wire format share.
-/
namespace UniBus

/-- Clock readings in nanoseconds. -/
abbrev Instant := ℕ

def fromMillis (ms : ℕ) : ℕ := ms * 1000000

abbrev UbStatus := UInt32

def ubOk : UbStatus := 0
def ubErrFlushed : UbStatus := 8

inductive UbError
  | addrInvalid
  | permDenied
  | alignment
  | linkDown
  | noResources
  | timeout
  | payloadTooLarge
  | flushed
  | internal (message : String)
  deriving DecidableEq, Repr

/-- The error text shown in log messages. -/
def UbError.display : UbError → String
  | addrInvalid => "address invalid"
  | permDenied => "permission denied"
  | alignment => "alignment error: address must be 8-byte aligned for atomic operations"
  | linkDown => "link down"
  | noResources => "no resources"
  | timeout => "timeout"
  | payloadTooLarge => "payload too large"
  | flushed => "flushed"
  | internal message => "internal error: " ++ message

/-- Verb types, as numbered in the DATA extension header. -/
inductive Verb
  | readReq
  | readResp
  | write
  | atomicCas
  | atomicFaa
  | send
  | writeImm
  | atomicCasResp
  | atomicFaaResp
  deriving DecidableEq, Repr

namespace Verb

def toU8 : Verb → UInt8
  | readReq => 1
  | readResp => 2
  | write => 3
  | atomicCas => 4
  | atomicFaa => 5
  | send => 6
  | writeImm => 7
  | atomicCasResp => 8
  | atomicFaaResp => 9

def fromU8 (v : UInt8) : Option Verb :=
  if v = 1 then some readReq
  else if v = 2 then some readResp
  else if v = 3 then some write
  else if v = 4 then some atomicCas
  else if v = 5 then some atomicFaa
  else if v = 6 then some send
  else if v = 7 then some writeImm
  else if v = 8 then some atomicCasResp
  else if v = 9 then some atomicFaaResp
  else none

@[simp] theorem fromU8_toU8 (v : Verb) : fromU8 v.toU8 = some v := by
  cases v <;> decide

theorem toU8_of_fromU8 {b : UInt8} {v : Verb} (h : fromU8 b = some v) : v.toU8 = b := by
  grind [fromU8, toU8]

end Verb

structure MrPerms where
  bits : UInt8
  deriving DecidableEq, Repr

namespace MrPerms

def read : MrPerms := ⟨0b001⟩
def write : MrPerms := ⟨0b010⟩
def atomic : MrPerms := ⟨0b100⟩

def union (p q : MrPerms) : MrPerms := ⟨p.bits ||| q.bits⟩

def contains (p q : MrPerms) : Bool := p.bits &&& q.bits == q.bits

/-- Keeps the three defined bits. -/
def fromBitsTruncate (bits : UInt8) : MrPerms := ⟨bits &&& 0b111⟩

def Known (p : MrPerms) : Prop := p.bits &&& 0b111 = p.bits

instance (p : MrPerms) : Decidable p.Known := inferInstanceAs (Decidable (_ = _))

theorem Known.fromBitsTruncate {p : MrPerms} (h : p.Known) :
    MrPerms.fromBitsTruncate p.bits = p :=
  congrArg MrPerms.mk h

end MrPerms

inductive DeviceKind
  | memory
  | npu
  deriving DecidableEq, Repr

namespace DeviceKind

def toU8 : DeviceKind → UInt8
  | memory => 0
  | npu => 1

def fromU8 (v : UInt8) : Option DeviceKind :=
  if v = 0 then some memory
  else if v = 1 then some npu
  else none

theorem fromU8_toU8 (k : DeviceKind) : fromU8 k.toU8 = some k := by
  cases k <;> rfl

end DeviceKind

inductive MrState
  | active
  | revoking
  | released
  deriving DecidableEq, Repr

structure Cqe where
  wrId : UInt64
  status : UbStatus
  imm : Option UInt64
  byteLen : UInt32
  jettyId : UInt32
  verb : Verb
  deriving DecidableEq, Repr

structure JettyAddr where
  nodeId : UInt16
  jettyId : UInt32
  deriving DecidableEq, Repr

inductive NodeState
  | joining
  | active
  | suspect
  | leaving
  | down
  deriving DecidableEq, Repr

/-- Emitted by the control plane to tell the data plane about its peers. -/
inductive PeerChangeEvent
  | joined (nodeId : UInt16) (epoch : UInt32)
  | recovered (nodeId : UInt16)
  | suspect (nodeId : UInt16)
  | down (nodeId : UInt16) (epoch : UInt32)
  deriving DecidableEq, Repr

end UniBus
