import UniBus.Core.Jetty
import UniBus.Core.LocalVerbs
import UniBus.Wire.Frame

/-!
# Verb handlers

What an inbound verb does to the tables and devices of a node. Every handler
returns the new host, the device access it made, if any, and its result: a
warning for the verbs without a response, a status or the response data for the
others. Building and sending the response is the engine's part.
-/
namespace UniBus.DataPlane

open Wire

/-- The tables and devices that verbs act on. -/
structure Host where
  mrTable : MrTable
  memory : Memory
  jettyTable : JettyTable

/-- Why a handler does not get to the device. -/
inductive Refusal
  | notFound
  | deregistering
  | denied (e : UbError)
  deriving DecidableEq, Repr

/-- The checks every region handler starts with. On success an in-flight
reference is held; a reference taken before a permission error is given back. -/
def acquire (t : MrTable) (mrHandle : UInt32) (verb : Verb) :
    Except Refusal (MrEntry × MrTable) :=
  match t.lookup mrHandle with
  | none => .error .notFound
  | some entry =>
    match t.tryInflightInc entry with
    | none => .error .deregistering
    | some t =>
      match entry.checkPerms verb with
      | .error e => .error (.denied e)
      | .ok () => .ok (entry, t)

/-- An address below the base of the region counts as its base. -/
def offsetInMr (entry : MrEntry) (addr : UbAddr) : UInt64 :=
  if addr.offset ≥ entry.baseUbAddr.offset then addr.offset - entry.baseUbAddr.offset else 0

def deviceOffset (entry : MrEntry) (addr : UbAddr) : UInt64 :=
  entry.baseOffset + offsetInMr entry addr

structure Handled (α : Type) where
  host : Host
  access : Option Access
  result : α

/-- The warning logged for a refused write. -/
def refusalWarning (label : String) (mrHandle : UInt32) : Refusal → String
  | .notFound => label ++ ": MR handle " ++ toString mrHandle ++ " not found"
  | .deregistering => label ++ ": MR " ++ toString mrHandle ++ " is being deregistered"
  | .denied e =>
    label ++ ": permission denied for MR " ++ toString mrHandle ++ ": " ++ e.display

/-- The status sent for a refused request. -/
def refusalStatus : Refusal → UbStatus
  | .notFound => 1
  | .deregistering => 1
  | .denied _ => 2

variable (h : Host)

def handleWrite (payload : List UInt8) (ext : DataExtHeader) : Handled (Option String) :=
  match acquire h.mrTable ext.mrHandle .write with
  | .error r => ⟨h, none, some (refusalWarning "WRITE" ext.mrHandle r)⟩
  | .ok (entry, t) =>
    let released := { h with mrTable := t.inflightDec entry }
    match h.memory.write entry.device (deviceOffset entry ext.ubAddr) payload with
    | .error e => ⟨released, none, some ("WRITE: device write error: " ++ e.display)⟩
    | .ok (memory, access) => ⟨{ released with memory }, some access, none⟩

/-- The completion of an immediate write, pushed on the target Jetty. -/
def notifyJetty (jettyTable : JettyTable) (ext : DataExtHeader) (byteLen : ℕ) :
    JettyTable × Option String :=
  match jettyTable.lookup ext.jettyDst with
  | none =>
    (jettyTable, some ("WRITE_IMM: jetty " ++ toString ext.jettyDst ++
      " not found, write completed but no CQE"))
  | some jetty =>
    match jetty.pushCqe ⟨0, ubOk, ext.imm, UInt32.ofNat byteLen, ext.jettyDst, .writeImm⟩ with
    | .error e =>
      (jettyTable, some ("WRITE_IMM: failed to push CQE to jetty " ++ toString ext.jettyDst ++
        ": " ++ e.display))
    | .ok jetty => (jettyTable.store jetty ext.jettyDst, none)

def handleWriteImm (payload : List UInt8) (ext : DataExtHeader) : Handled (Option String) :=
  match acquire h.mrTable ext.mrHandle .writeImm with
  | .error r => ⟨h, none, some (refusalWarning "WRITE_IMM" ext.mrHandle r)⟩
  | .ok (entry, t) =>
    let released := { h with mrTable := t.inflightDec entry }
    match h.memory.write entry.device (deviceOffset entry ext.ubAddr) payload with
    | .error e => ⟨released, none, some ("WRITE_IMM: device write error: " ++ e.display)⟩
    | .ok (memory, access) =>
      let (jettyTable, warning) := notifyJetty h.jettyTable ext payload.length
      ⟨{ released with memory, jettyTable }, some access, warning⟩

def readLen (payload : List UInt8) : ℕ :=
  if payload.length ≥ 4 then BigEndian.get (payload.take 4) else 1024

theorem readLen_put (len : UInt32) : readLen (BigEndian.put 4 len.toNat) = len.toNat := by
  have hlt : len.toNat < 256 ^ 4 := len.toNat_lt
  have htake : (BigEndian.put 4 len.toNat).take 4 = BigEndian.put 4 len.toNat :=
    List.take_of_length_le (by simp)
  rw [readLen, if_pos (by simp), htake, BigEndian.get_put, Nat.mod_eq_of_lt hlt]

def handleReadReq (payload : List UInt8) (ext : DataExtHeader) :
    Handled (Except UbStatus (List UInt8)) :=
  match acquire h.mrTable ext.mrHandle .readReq with
  | .error r => ⟨h, none, .error (refusalStatus r)⟩
  | .ok (entry, t) =>
    let released := { h with mrTable := t.inflightDec entry }
    match h.memory.read entry.device (deviceOffset entry ext.ubAddr) (readLen payload) with
    | .error _ => ⟨released, none, .error 1⟩
    | .ok (bytes, access) => ⟨released, some access, .ok bytes⟩

theorem memory_handleReadReq (payload : List UInt8) (ext : DataExtHeader) :
    (handleReadReq h payload ext).host.memory = h.memory := by
  unfold handleReadReq
  split
  · rfl
  · dsimp only
    split <;> rfl

def operand (payload : List UInt8) (i : ℕ) : UInt64 :=
  UInt64.ofNat (BigEndian.get (Bytes.slice payload (8 * i) 8))

/-- The old value as it is sent back, padded to sixteen bytes. -/
def atomicReply (old : UInt64) : List UInt8 :=
  BigEndian.put 8 old.toNat ++ BigEndian.put 4 0 ++ BigEndian.put 4 0

/-- Both atomic handlers: the alignment and the operands are checked before the
device is asked; its errors are reported as internal. -/
def handleAtomic (verb : Verb) (operandBytes : ℕ)
    (act : Memory → DeviceRef → UInt64 → Except UbError (UInt64 × Memory × Access))
    (payload : List UInt8) (ext : DataExtHeader) : Handled (Except UbStatus (List UInt8)) :=
  match acquire h.mrTable ext.mrHandle verb with
  | .error r => ⟨h, none, .error (refusalStatus r)⟩
  | .ok (entry, t) =>
    let released := { h with mrTable := t.inflightDec entry }
    if offsetInMr entry ext.ubAddr % 8 ≠ 0 then ⟨released, none, .error 3⟩
    else if payload.length < operandBytes then ⟨released, none, .error 9⟩
    else
      match act h.memory entry.device (deviceOffset entry ext.ubAddr) with
      | .error _ => ⟨released, none, .error 9⟩
      | .ok (old, memory, access) =>
        ⟨{ released with memory }, some access, .ok (atomicReply old)⟩

def handleAtomicCas (payload : List UInt8) (ext : DataExtHeader) :
    Handled (Except UbStatus (List UInt8)) :=
  handleAtomic h .atomicCas 16
    (fun m r offset => m.atomicCas r offset (operand payload 0) (operand payload 1)) payload ext

def handleAtomicFaa (payload : List UInt8) (ext : DataExtHeader) :
    Handled (Except UbStatus (List UInt8)) :=
  handleAtomic h .atomicFaa 8
    (fun m r offset => m.atomicFaa r offset (operand payload 0)) payload ext

/-- Consumes a posted receive buffer; the flag tells whether one was taken. -/
def handleSend (payload : List UInt8) (ext : DataExtHeader) : Host × Bool × Option String :=
  match h.jettyTable.lookup ext.jettyDst with
  | none => (h, false, some ("SEND: jetty " ++ toString ext.jettyDst ++ " not found"))
  | some jetty =>
    match jetty.popRecv with
    | none =>
      (h, false, some ("SEND: no recv buffer posted on jetty " ++ toString ext.jettyDst ++
        ", dropping"))
    | some (recvBuf, jetty) =>
      -- the bytes copied into the buffer are dropped with it
      let copyLen := min payload.length recvBuf.buf.length
      let cqe : Cqe :=
        ⟨recvBuf.wrId, ubOk, ext.imm, UInt32.ofNat copyLen, ext.jettyDst, .send⟩
      match jetty.pushCqe cqe with
      | .error e =>
        ({ h with jettyTable := h.jettyTable.store jetty ext.jettyDst }, true,
          some ("SEND: failed to push CQE to jetty " ++ toString ext.jettyDst ++ ": " ++ e.display))
      | .ok jetty => ({ h with jettyTable := h.jettyTable.store jetty ext.jettyDst }, true, none)

end UniBus.DataPlane
