import UniBus.Core.Addr

/-!
# Data-plane frames

Headers and payload records as the program holds them in memory. Flag sets are
bit masks; only `fromBitsTruncate` and the named constants produce them.
-/
namespace UniBus.Wire

def magic : UInt32 := 0x55425459
def version : UInt8 := 1
def frameHeaderSize : ℕ := 32
def dataExtHeaderSize : ℕ := 48
def dataExtHeaderImmSize : ℕ := 56

inductive FrameType
  | data
  | ack
  | credit
  deriving DecidableEq, Repr

namespace FrameType

def toU8 : FrameType → UInt8
  | data => 0x01
  | ack => 0x02
  | credit => 0x03

def fromU8 (v : UInt8) : Option FrameType :=
  if v = 0x01 then some data
  else if v = 0x02 then some ack
  else if v = 0x03 then some credit
  else none

@[simp] theorem fromU8_toU8 (t : FrameType) : fromU8 t.toU8 = some t := by
  cases t <;> decide

theorem toU8_of_fromU8 {v : UInt8} {t : FrameType} (h : fromU8 v = some t) : t.toU8 = v := by
  unfold fromU8 at h
  split_ifs at h with hv hv hv <;> cases h <;> exact hv.symm

end FrameType

structure FrameFlags where
  bits : UInt16
  deriving DecidableEq, Repr

namespace FrameFlags

def ackReq : FrameFlags := ⟨0x01⟩
def hasImm : FrameFlags := ⟨0x10⟩
def hasSack : FrameFlags := ⟨0x20⟩
def empty : FrameFlags := ⟨0⟩

/-- The union of all seven defined bits. -/
def all : UInt16 := 0x7F

def fromBitsTruncate (bits : UInt16) : FrameFlags := ⟨bits &&& all⟩

def contains (f g : FrameFlags) : Bool := f.bits &&& g.bits == g.bits

def union (f g : FrameFlags) : FrameFlags := ⟨f.bits ||| g.bits⟩

theorem contains_union_right (f g : FrameFlags) : (f.union g).contains g = true := by
  rw [contains, beq_iff_eq]
  apply UInt16.eq_of_toBitVec_eq
  ext i hi
  cases hbit : g.bits.toBitVec[i] <;> simp [union, hbit]

def Known (f : FrameFlags) : Prop := f.bits &&& all = f.bits

instance (f : FrameFlags) : Decidable f.Known := inferInstanceAs (Decidable (_ = _))

theorem Known.fromBitsTruncate {f : FrameFlags} (h : f.Known) :
    FrameFlags.fromBitsTruncate f.bits = f :=
  congrArg FrameFlags.mk h

theorem Known.fromBitsTruncate_or {g : FrameFlags} (h : g.Known) (bits : UInt16) :
    FrameFlags.fromBitsTruncate (bits ||| g.bits) =
      (FrameFlags.fromBitsTruncate bits).union g := by
  have hdistrib : (bits ||| g.bits) &&& all = (bits &&& all) ||| (g.bits &&& all) :=
    UInt16.eq_of_toBitVec_eq BitVec.and_or_distrib_right
  rw [FrameFlags.fromBitsTruncate, hdistrib, h]
  rfl

end FrameFlags

structure ExtFlags where
  bits : UInt8
  deriving DecidableEq, Repr

namespace ExtFlags

def hasImm : ExtFlags := ⟨0x01⟩
def errResp : ExtFlags := ⟨0x04⟩
def empty : ExtFlags := ⟨0⟩

/-- The union of all three defined bits. -/
def all : UInt8 := 0x07

def fromBitsTruncate (bits : UInt8) : ExtFlags := ⟨bits &&& all⟩

def contains (f g : ExtFlags) : Bool := f.bits &&& g.bits == g.bits

def union (f g : ExtFlags) : ExtFlags := ⟨f.bits ||| g.bits⟩

def Known (f : ExtFlags) : Prop := f.bits &&& all = f.bits

instance (f : ExtFlags) : Decidable f.Known := inferInstanceAs (Decidable (_ = _))

theorem Known.fromBitsTruncate {f : ExtFlags} (h : f.Known) :
    ExtFlags.fromBitsTruncate f.bits = f :=
  congrArg ExtFlags.mk h

end ExtFlags

structure FrameHeader where
  magic : UInt32
  version : UInt8
  frameType : FrameType
  flags : FrameFlags
  srcNode : UInt16
  dstNode : UInt16
  reserved : UInt32
  streamSeq : UInt64
  payloadLen : UInt32
  headerCrc : UInt32
  deriving DecidableEq, Repr

/-- DATA extension header; `opaqueId` is the field the source calls `opaque`. -/
structure DataExtHeader where
  verb : Verb
  extFlags : ExtFlags
  mrHandle : UInt32
  jettySrc : UInt32
  jettyDst : UInt32
  opaqueId : UInt64
  fragId : UInt32
  fragIndex : UInt16
  fragTotal : UInt16
  ubAddr : UbAddr
  imm : Option UInt64
  deriving DecidableEq, Repr

/-- ACK payload; the SACK bitmap has 32 bytes. -/
structure AckPayload where
  ackSeq : UInt64
  creditGrant : UInt32
  reserved : UInt32
  sackBitmap : Option (Vector UInt8 32)
  deriving DecidableEq, Repr

structure CreditPayload where
  credits : UInt32
  reserved : UInt32
  deriving DecidableEq, Repr

end UniBus.Wire
