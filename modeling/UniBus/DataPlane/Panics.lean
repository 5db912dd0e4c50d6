import UniBus.DataPlane.ErrorReplies
import UniBus.DataPlane.Registration
import UniBus.Transport.Panics

/-!
# Panics of a node

The way of a frame through the verb handlers with every sum, difference, index
and unwrap checked, as in `Transport/Panics`. The only sum that can overflow is
the one of the bounds check of a device, and it does for the requests whose
offset on the device and length reach `2^64` together (`Overruns`).
-/
namespace UniBus

/-! ## Devices -/

namespace Device

variable (d : Device)

/-- The end of the range is computed before anything is compared. -/
def checkBounds? (capacity offset len : ℕ) : Option (Except UbError Unit) := do
  let stop ← Checked.add 64 offset len
  return if offset > capacity ∨ stop > capacity then .error .addrInvalid else .ok ()

def read? (offset : UInt64) (len : ℕ) : Option (Except UbError (List UInt8)) := do
  match ← checkBounds? d.capacity offset.toNat len with
  | .error e => return .error e
  | .ok () =>
    let stop ← Checked.add 64 offset.toNat len
    let bytes ← Checked.slice d.data offset.toNat stop
    return .ok (← Checked.ofLength len bytes)

def write? (offset : UInt64) (buf : List UInt8) : Option (Except UbError Device) := do
  match ← checkBounds? d.capacity offset.toNat buf.length with
  | .error e => return .error e
  | .ok () =>
    let stop ← Checked.add 64 offset.toNat buf.length
    let data ← Checked.copyFromSlice d.data offset.toNat stop buf
    return .ok { d with data }

/-- Both atomics: the checks, and the index of the first byte of the word. -/
def atomic? (offset : UInt64) (act : UInt64 → Device) :
    Option (Except UbError (UInt64 × Device)) :=
  match checkAlignment offset with
  | .error e => some (.error e)
  | .ok () => do
    match ← checkBounds? d.capacity offset.toNat 8 with
    | .error e => return .error e
    | .ok () =>
      let _ ← d.data[offset.toNat]?
      return .ok (d.word offset, act (d.word offset))

def atomicCas? (offset expect new : UInt64) : Option (Except UbError (UInt64 × Device)) :=
  d.atomic? offset fun old => if old = expect then d.setWord offset new else d

def atomicFaa? (offset add : UInt64) : Option (Except UbError (UInt64 × Device)) :=
  d.atomic? offset fun old => d.setWord offset (old + add)

theorem checkBounds?_eq (capacity offset len : ℕ) :
    checkBounds? capacity offset len =
      if offset + len < 2 ^ 64 then some (checkBounds capacity offset len) else none := by
  unfold checkBounds? checkBounds
  by_cases hfit : offset + len < 2 ^ 64
  · rw [if_pos hfit, Checked.add_eq_some hfit]
    rfl
  · rw [if_neg hfit, Checked.add_eq_none (Nat.not_lt.mp hfit)]
    rfl

theorem read?_eq (offset : UInt64) (len : ℕ) :
    d.read? offset len =
      if offset.toNat + len < 2 ^ 64 then some (d.read offset len) else none := by
  rw [read?, checkBounds?_eq]
  by_cases hfit : offset.toNat + len < 2 ^ 64
  · rw [if_pos hfit, if_pos hfit, checkBounds_eq, read_eq, Checked.add_eq_some hfit]
    by_cases hroom : offset.toNat + len ≤ d.capacity
    · simp [hroom, Checked.slice_eq_some (Nat.le_add_right _ _) hroom,
        Checked.ofLength_slice hroom]
    · simp [hroom]
  · rw [if_neg hfit, if_neg hfit]
    rfl

theorem write?_eq (offset : UInt64) (buf : List UInt8) :
    d.write? offset buf =
      if offset.toNat + buf.length < 2 ^ 64 then some (d.write offset buf) else none := by
  rw [write?, checkBounds?_eq]
  by_cases hfit : offset.toNat + buf.length < 2 ^ 64
  · rw [if_pos hfit, if_pos hfit, checkBounds_eq, write_eq, Checked.add_eq_some hfit]
    by_cases hroom : offset.toNat + buf.length ≤ d.capacity
    · simp [hroom, Checked.copyFromSlice_eq_some hroom]
    · simp [hroom]
  · rw [if_neg hfit, if_neg hfit]
    rfl

/-- A misaligned word is refused before the bounds are looked at. -/
def WordFits (offset : UInt64) : Prop := offset % 8 ≠ 0 ∨ offset.toNat + 8 < 2 ^ 64

instance (offset : UInt64) : Decidable (WordFits offset) := inferInstanceAs (Decidable (_ ∨ _))

theorem atomic?_eq (offset : UInt64) (act : UInt64 → Device) :
    d.atomic? offset act =
      if WordFits offset then
        some (if offset % 8 ≠ 0 then .error .alignment
          else if offset.toNat + 8 ≤ d.capacity then .ok (d.word offset, act (d.word offset))
          else .error .addrInvalid)
      else none := by
  unfold atomic? checkAlignment
  by_cases halign : offset % 8 ≠ 0
  · have hword : WordFits offset := Or.inl halign
    simp [hword, halign]
  · rw [if_neg halign, if_neg halign]
    dsimp only
    rw [checkBounds?_eq]
    by_cases hfit : offset.toNat + 8 < 2 ^ 64
    · have hword : WordFits offset := Or.inr hfit
      rw [if_pos hfit, if_pos hword, checkBounds_eq]
      by_cases hroom : offset.toNat + 8 ≤ d.capacity
      · have hbyte : offset.toNat < d.data.length := by
          have : d.capacity = d.data.length := rfl
          omega
        simp [hroom, List.getElem?_eq_getElem hbyte]
      · simp [hroom]
    · have hword : ¬ WordFits offset := not_or.mpr ⟨halign, hfit⟩
      rw [if_neg hfit, if_neg hword]
      rfl

theorem atomicCas?_eq (offset expect new : UInt64) :
    d.atomicCas? offset expect new =
      if WordFits offset then some (d.atomicCas offset expect new) else none := by
  rw [atomicCas?, atomic?_eq, atomicCas_eq]

theorem atomicFaa?_eq (offset add : UInt64) :
    d.atomicFaa? offset add =
      if WordFits offset then some (d.atomicFaa offset add) else none := by
  rw [atomicFaa?, atomic?_eq, atomicFaa_eq]

end Device

namespace Memory

variable (m : Memory) (r : DeviceRef)

def read? (offset : UInt64) (len : ℕ) : Option (Except UbError (List UInt8 × Access)) :=
  ((m r).read? offset len).map fun result =>
    result.map fun bytes => (bytes, ⟨r, .read, offset.toNat, len⟩)

def write? (offset : UInt64) (buf : List UInt8) : Option (Except UbError (Memory × Access)) :=
  ((m r).write? offset buf).map fun result =>
    result.map fun d => (Function.update m r d, ⟨r, .write, offset.toNat, buf.length⟩)

def atomicCas? (offset expect new : UInt64) :
    Option (Except UbError (UInt64 × Memory × Access)) :=
  ((m r).atomicCas? offset expect new).map fun result =>
    result.map fun (old, d) => (old, Function.update m r d, ⟨r, .atomicCas, offset.toNat, 8⟩)

def atomicFaa? (offset add : UInt64) : Option (Except UbError (UInt64 × Memory × Access)) :=
  ((m r).atomicFaa? offset add).map fun result =>
    result.map fun (old, d) => (old, Function.update m r d, ⟨r, .atomicFaa, offset.toNat, 8⟩)

theorem read?_eq (offset : UInt64) (len : ℕ) :
    m.read? r offset len =
      if offset.toNat + len < 2 ^ 64 then some (m.read r offset len) else none := by
  rw [read?, Device.read?_eq]
  split_ifs <;> rfl

theorem write?_eq (offset : UInt64) (buf : List UInt8) :
    m.write? r offset buf =
      if offset.toNat + buf.length < 2 ^ 64 then some (m.write r offset buf) else none := by
  rw [write?, Device.write?_eq]
  split_ifs <;> rfl

theorem atomicCas?_eq (offset expect new : UInt64) :
    m.atomicCas? r offset expect new =
      if Device.WordFits offset then some (m.atomicCas r offset expect new) else none := by
  rw [atomicCas?, Device.atomicCas?_eq]
  split_ifs <;> rfl

theorem atomicFaa?_eq (offset add : UInt64) :
    m.atomicFaa? r offset add =
      if Device.WordFits offset then some (m.atomicFaa r offset add) else none := by
  rw [atomicFaa?, Device.atomicFaa?_eq]
  split_ifs <;> rfl

theorem length_of_read {offset : UInt64} {len : ℕ} {bytes : List UInt8} {access : Access}
    (h : m.read r offset len = .ok (bytes, access)) : bytes.length = len := by
  rw [read, Device.read_eq] at h
  split_ifs at h with hroom
  · cases h
    exact Bytes.length_slice hroom
  · cases h

end Memory

namespace DataPlane

open Wire Transport

/-! ## Handlers -/

def offsetInMr? (entry : MrEntry) (addr : UbAddr) : Option UInt64 :=
  if addr.offset ≥ entry.baseUbAddr.offset then
    Checked.subU64 addr.offset entry.baseUbAddr.offset
  else some 0

def deviceOffset? (entry : MrEntry) (addr : UbAddr) : Option UInt64 := do
  Checked.addU64 entry.baseOffset (← offsetInMr? entry addr)

theorem offsetInMr?_eq (entry : MrEntry) (addr : UbAddr) :
    offsetInMr? entry addr = some (offsetInMr entry addr) := by
  unfold offsetInMr? offsetInMr
  split_ifs with h
  · exact Checked.subU64_eq_some h
  · rfl

/-- The base of a region is the offset of its address, so that adding the one
after subtracting the other gives back an address. -/
theorem deviceOffset?_eq (entry : MrEntry) (addr : UbAddr) :
    deviceOffset? entry addr = some (deviceOffset entry addr) := by
  have hroom : entry.baseOffset.toNat + (offsetInMr entry addr).toNat < 2 ^ 64 := by
    unfold offsetInMr
    rw [entry.offset_baseUbAddr]
    split_ifs with h
    · rw [UInt64.toNat_sub_of_le _ _ h]
      have hle : entry.baseOffset.toNat ≤ addr.offset.toNat := h
      have hlt := addr.offset.toNat_lt
      omega
    · simpa using entry.baseOffset.toNat_lt
  rw [deviceOffset?, offsetInMr?_eq]
  exact Checked.addU64_eq_some hroom

variable (h : Host)

def handleWrite? (payload : List UInt8) (ext : DataExtHeader) : Option (Handled (Option String)) :=
  match acquire h.mrTable ext.mrHandle .write with
  | .error r => some ⟨h, none, some (refusalWarning "WRITE" ext.mrHandle r)⟩
  | .ok (entry, t) => do
    let released := { h with mrTable := t.inflightDec entry }
    match ← h.memory.write? entry.device (← deviceOffset? entry ext.ubAddr) payload with
    | .error e => return ⟨released, none, some ("WRITE: device write error: " ++ e.display)⟩
    | .ok (memory, access) => return ⟨{ released with memory }, some access, none⟩

def handleWriteImm? (payload : List UInt8) (ext : DataExtHeader) :
    Option (Handled (Option String)) :=
  match acquire h.mrTable ext.mrHandle .writeImm with
  | .error r => some ⟨h, none, some (refusalWarning "WRITE_IMM" ext.mrHandle r)⟩
  | .ok (entry, t) => do
    let released := { h with mrTable := t.inflightDec entry }
    match ← h.memory.write? entry.device (← deviceOffset? entry ext.ubAddr) payload with
    | .error e => return ⟨released, none, some ("WRITE_IMM: device write error: " ++ e.display)⟩
    | .ok (memory, access) =>
      let (jettyTable, warning) := notifyJetty h.jettyTable ext payload.length
      return ⟨{ released with memory, jettyTable }, some access, warning⟩

/-- The first four bytes are indexed one by one. -/
def readLen? (payload : List UInt8) : Option ℕ :=
  if payload.length ≥ 4 then do
    let b₀ ← payload[0]?
    let b₁ ← payload[1]?
    let b₂ ← payload[2]?
    let b₃ ← payload[3]?
    return BigEndian.get [b₀, b₁, b₂, b₃]
  else some 1024

def handleReadReq? (payload : List UInt8) (ext : DataExtHeader) :
    Option (Handled (Except UbStatus (List UInt8))) :=
  match acquire h.mrTable ext.mrHandle .readReq with
  | .error r => some ⟨h, none, .error (refusalStatus r)⟩
  | .ok (entry, t) => do
    let released := { h with mrTable := t.inflightDec entry }
    let len ← readLen? payload
    match ← h.memory.read? entry.device (← deviceOffset? entry ext.ubAddr) len with
    | .error _ => return ⟨released, none, .error 1⟩
    | .ok (bytes, access) => return ⟨released, some access, .ok bytes⟩

/-- A slice of eight bytes, turned into an array and unwrapped. -/
def operand? (payload : List UInt8) (i : ℕ) : Option UInt64 := do
  let bytes ← Checked.slice payload (8 * i) (8 * i + 8)
  return UInt64.ofNat (BigEndian.get (← Checked.ofLength 8 bytes))

def handleAtomic? (verb : Verb) (operandBytes : ℕ)
    (act? : Memory → DeviceRef → UInt64 → Option (Except UbError (UInt64 × Memory × Access)))
    (payload : List UInt8) (ext : DataExtHeader) :
    Option (Handled (Except UbStatus (List UInt8))) :=
  match acquire h.mrTable ext.mrHandle verb with
  | .error r => some ⟨h, none, .error (refusalStatus r)⟩
  | .ok (entry, t) => do
    let released := { h with mrTable := t.inflightDec entry }
    if (← offsetInMr? entry ext.ubAddr) % 8 ≠ 0 then return ⟨released, none, .error 3⟩
    else
      let offset ← deviceOffset? entry ext.ubAddr
      if payload.length < operandBytes then return ⟨released, none, .error 9⟩
      else
        match ← act? h.memory entry.device offset with
        | .error _ => return ⟨released, none, .error 9⟩
        | .ok (old, memory, access) =>
          return ⟨{ released with memory }, some access, .ok (atomicReply old)⟩

def handleAtomicCas? (payload : List UInt8) (ext : DataExtHeader) :
    Option (Handled (Except UbStatus (List UInt8))) :=
  handleAtomic? h .atomicCas 16
    (fun m r offset => do m.atomicCas? r offset (← operand? payload 0) (← operand? payload 1))
    payload ext

def handleAtomicFaa? (payload : List UInt8) (ext : DataExtHeader) :
    Option (Handled (Except UbStatus (List UInt8))) :=
  handleAtomic? h .atomicFaa 8
    (fun m r offset => do m.atomicFaa? r offset (← operand? payload 0)) payload ext

def handleSend? (payload : List UInt8) (ext : DataExtHeader) :
    Option (Host × Bool × Option String) :=
  match h.jettyTable.lookup ext.jettyDst with
  | none => some (h, false, some ("SEND: jetty " ++ toString ext.jettyDst ++ " not found"))
  | some jetty =>
    match jetty.popRecv with
    | none =>
      some (h, false, some ("SEND: no recv buffer posted on jetty " ++ toString ext.jettyDst ++
        ", dropping"))
    | some (recvBuf, jetty) => do
      let copyLen := min payload.length recvBuf.buf.length
      let bytes ← Checked.slice payload 0 copyLen
      let _ ← Checked.copyFromSlice recvBuf.buf 0 copyLen bytes
      let cqe : Cqe :=
        ⟨recvBuf.wrId, ubOk, ext.imm, UInt32.ofNat copyLen, ext.jettyDst, .send⟩
      match jetty.pushCqe cqe with
      | .error e =>
        return ({ h with jettyTable := h.jettyTable.store jetty ext.jettyDst }, true,
          some ("SEND: failed to push CQE to jetty " ++ toString ext.jettyDst ++ ": " ++ e.display))
      | .ok jetty =>
        return ({ h with jettyTable := h.jettyTable.store jetty ext.jettyDst }, true, none)

/-- The operation a handler asks of a device: where it starts and how many bytes
it is about. -/
structure DeviceCall where
  offset : UInt64
  len : ℕ
  deriving DecidableEq, Repr

/-- The end of the range is a 64-bit number; so it is if nothing is asked. -/
def Fits : Option DeviceCall → Prop
  | none => True
  | some call => call.offset.toNat + call.len < 2 ^ 64

instance : DecidablePred Fits
  | none => inferInstanceAs (Decidable True)
  | some _ => inferInstanceAs (Decidable (_ < _))

def writeCall (verb : Verb) (payload : List UInt8) (ext : DataExtHeader) : Option DeviceCall :=
  match acquire h.mrTable ext.mrHandle verb with
  | .error _ => none
  | .ok (entry, _) => some ⟨deviceOffset entry ext.ubAddr, payload.length⟩

def readCall (payload : List UInt8) (ext : DataExtHeader) : Option DeviceCall :=
  match acquire h.mrTable ext.mrHandle .readReq with
  | .error _ => none
  | .ok (entry, _) => some ⟨deviceOffset entry ext.ubAddr, readLen payload⟩

/-- Requests refused for their alignment or their operands do not count. -/
def atomicCall (verb : Verb) (operandBytes : ℕ) (payload : List UInt8) (ext : DataExtHeader) :
    Option DeviceCall :=
  match acquire h.mrTable ext.mrHandle verb with
  | .error _ => none
  | .ok (entry, _) =>
    if offsetInMr entry ext.ubAddr % 8 ≠ 0 ∨ payload.length < operandBytes ∨
        deviceOffset entry ext.ubAddr % 8 ≠ 0 then none
    else some ⟨deviceOffset entry ext.ubAddr, 8⟩

theorem fits_some (call : DeviceCall) :
    Fits (some call) ↔ call.offset.toNat + call.len < 2 ^ 64 := Iff.rfl

/-- A handler goes on after its device operation unless that panics. -/
theorem bind_eq_of_fits {α β : Type} {p : Prop} [Decidable p] {call : Option DeviceCall}
    (hp : Fits call ↔ p) {r : α} {rest : α → Option β} {b : β} (hrest : rest r = some b) :
    (if p then some r else none).bind rest = if Fits call then some b else none := by
  by_cases h : p
  · rw [if_pos h, if_pos (hp.mpr h)]
    exact hrest
  · rw [if_neg h, if_neg (fun hfits => h (hp.mp hfits))]
    rfl

variable (payload : List UInt8) (ext : DataExtHeader)

theorem handleWrite?_eq :
    handleWrite? h payload ext =
      if Fits (writeCall h .write payload ext) then some (handleWrite h payload ext) else none := by
  unfold handleWrite? handleWrite writeCall
  cases acquire h.mrTable ext.mrHandle .write with
  | error r => rfl
  | ok acquired =>
    obtain ⟨entry, t⟩ := acquired
    dsimp only
    rw [deviceOffset?_eq]
    dsimp only [Option.bind_eq_bind, Option.bind_some]
    rw [Memory.write?_eq]
    refine bind_eq_of_fits (fits_some ⟨deviceOffset entry ext.ubAddr, payload.length⟩) ?_
    cases h.memory.write entry.device (deviceOffset entry ext.ubAddr) payload <;> rfl

theorem handleWriteImm?_eq :
    handleWriteImm? h payload ext =
      if Fits (writeCall h .writeImm payload ext) then some (handleWriteImm h payload ext)
      else none := by
  unfold handleWriteImm? handleWriteImm writeCall
  cases acquire h.mrTable ext.mrHandle .writeImm with
  | error r => rfl
  | ok acquired =>
    obtain ⟨entry, t⟩ := acquired
    dsimp only
    rw [deviceOffset?_eq]
    dsimp only [Option.bind_eq_bind, Option.bind_some]
    rw [Memory.write?_eq]
    refine bind_eq_of_fits (fits_some ⟨deviceOffset entry ext.ubAddr, payload.length⟩) ?_
    cases h.memory.write entry.device (deviceOffset entry ext.ubAddr) payload <;> rfl

theorem readLen?_eq : readLen? payload = some (readLen payload) := by
  unfold readLen? readLen
  split_ifs with hlen
  · match payload, hlen with
    | b₀ :: b₁ :: b₂ :: b₃ :: rest, _ => rfl
  · rfl

theorem handleReadReq?_eq :
    handleReadReq? h payload ext =
      if Fits (readCall h payload ext) then some (handleReadReq h payload ext) else none := by
  unfold handleReadReq? handleReadReq readCall
  cases acquire h.mrTable ext.mrHandle .readReq with
  | error r => rfl
  | ok acquired =>
    obtain ⟨entry, t⟩ := acquired
    dsimp only
    rw [readLen?_eq, deviceOffset?_eq]
    dsimp only [Option.bind_eq_bind, Option.bind_some]
    rw [Memory.read?_eq]
    refine bind_eq_of_fits (fits_some ⟨deviceOffset entry ext.ubAddr, readLen payload⟩) ?_
    cases h.memory.read entry.device (deviceOffset entry ext.ubAddr) (readLen payload) <;> rfl

theorem operand?_eq {payload : List UInt8} {i : ℕ} (hlen : 8 * i + 8 ≤ payload.length) :
    operand? payload i = some (operand payload i) := by
  have hslice : Checked.slice payload (8 * i) (8 * i + 8) =
      some (Bytes.slice payload (8 * i) 8) := by
    rw [Checked.slice_eq_some (Nat.le_add_right _ _) hlen, Nat.add_sub_cancel_left]
  rw [operand?, hslice]
  dsimp only [Option.bind_eq_bind, Option.bind_some]
  rw [Checked.ofLength_slice hlen]
  rfl

theorem handleAtomic?_eq {verb : Verb} {operandBytes : ℕ}
    {act? : Memory → DeviceRef → UInt64 → Option (Except UbError (UInt64 × Memory × Access))}
    {act : Memory → DeviceRef → UInt64 → Except UbError (UInt64 × Memory × Access)}
    {payload : List UInt8}
    (hact : operandBytes ≤ payload.length → ∀ m r offset,
      act? m r offset = if Device.WordFits offset then some (act m r offset) else none)
    (ext : DataExtHeader) :
    handleAtomic? h verb operandBytes act? payload ext =
      if Fits (atomicCall h verb operandBytes payload ext) then
        some (handleAtomic h verb operandBytes act payload ext)
      else none := by
  unfold handleAtomic? handleAtomic atomicCall
  cases acquire h.mrTable ext.mrHandle verb with
  | error r => rfl
  | ok acquired =>
    obtain ⟨entry, t⟩ := acquired
    dsimp only
    rw [offsetInMr?_eq, deviceOffset?_eq]
    dsimp only [Option.bind_eq_bind, Option.bind_some]
    by_cases halign : offsetInMr entry ext.ubAddr % 8 ≠ 0
    · have hnone : offsetInMr entry ext.ubAddr % 8 ≠ 0 ∨ payload.length < operandBytes ∨
          deviceOffset entry ext.ubAddr % 8 ≠ 0 := Or.inl halign
      simp only [if_pos halign, if_pos hnone]
      rfl
    · by_cases hlen : payload.length < operandBytes
      · have hnone : offsetInMr entry ext.ubAddr % 8 ≠ 0 ∨ payload.length < operandBytes ∨
            deviceOffset entry ext.ubAddr % 8 ≠ 0 := Or.inr (Or.inl hlen)
        simp only [if_neg halign, if_pos hlen, if_pos hnone]
        rfl
      · have hfits : Fits (if offsetInMr entry ext.ubAddr % 8 ≠ 0 ∨ payload.length < operandBytes ∨
            deviceOffset entry ext.ubAddr % 8 ≠ 0 then none
            else some ⟨deviceOffset entry ext.ubAddr, 8⟩) ↔
              Device.WordFits (deviceOffset entry ext.ubAddr) := by
          by_cases hword : deviceOffset entry ext.ubAddr % 8 ≠ 0
          · rw [if_pos (Or.inr (Or.inr hword))]
            exact iff_of_true trivial (Or.inl hword)
          · rw [if_neg (not_or.mpr ⟨halign, not_or.mpr ⟨hlen, hword⟩⟩), fits_some]
            exact ⟨Or.inr, fun hfits => hfits.resolve_left hword⟩
        rw [if_neg halign, if_neg halign, if_neg hlen, if_neg hlen, hact (Nat.not_lt.mp hlen)]
        apply bind_eq_of_fits hfits
        cases act h.memory entry.device (deviceOffset entry ext.ubAddr) <;> rfl

theorem handleAtomicCas?_eq :
    handleAtomicCas? h payload ext =
      if Fits (atomicCall h .atomicCas 16 payload ext) then some (handleAtomicCas h payload ext)
      else none := by
  apply handleAtomic?_eq
  intro hlen m r offset
  rw [operand?_eq (by omega), operand?_eq (by omega)]
  exact m.atomicCas?_eq r offset _ _

theorem handleAtomicFaa?_eq :
    handleAtomicFaa? h payload ext =
      if Fits (atomicCall h .atomicFaa 8 payload ext) then some (handleAtomicFaa h payload ext)
      else none := by
  apply handleAtomic?_eq
  intro hlen m r offset
  rw [operand?_eq (by omega)]
  exact m.atomicFaa?_eq r offset _

/-- What is copied fits both the payload and the buffer. -/
theorem handleSend?_eq :
    handleSend? h payload ext = some (handleSend h payload ext) := by
  unfold handleSend? handleSend
  cases h.jettyTable.lookup ext.jettyDst with
  | none => rfl
  | some jetty =>
    dsimp only
    cases jetty.popRecv with
    | none => rfl
    | some popped =>
      obtain ⟨recvBuf, jetty⟩ := popped
      have hslice : Checked.slice payload 0 (min payload.length recvBuf.buf.length) =
          some (Bytes.slice payload 0 (min payload.length recvBuf.buf.length)) :=
        Checked.slice_eq_some (Nat.zero_le _) (Nat.min_le_left _ _)
      have hlen : (Bytes.slice payload 0 (min payload.length recvBuf.buf.length)).length =
          min payload.length recvBuf.buf.length :=
        Bytes.length_slice (by omega)
      have hcopy : Checked.copyFromSlice recvBuf.buf 0 (min payload.length recvBuf.buf.length)
          (Bytes.slice payload 0 (min payload.length recvBuf.buf.length)) =
            some (Bytes.splice recvBuf.buf 0
              (Bytes.slice payload 0 (min payload.length recvBuf.buf.length))) :=
        if_pos ⟨Nat.zero_le _, Nat.min_le_right _ _, hlen⟩
      dsimp only
      rw [hslice]
      dsimp only [Option.bind_eq_bind, Option.bind_some]
      rw [hcopy]
      dsimp only [Option.bind_some]
      cases jetty.pushCqe _ <;> rfl

theorem readLen_lt : readLen payload < 2 ^ 32 := by
  unfold readLen
  split_ifs with hlen
  · have hget := BigEndian.get_lt (payload.take 4)
    rwa [List.length_take, Nat.min_eq_left hlen] at hget
  · decide

theorem length_handleReadReq {data : List UInt8}
    (hdata : (handleReadReq h payload ext).result = .ok data) : data.length = readLen payload := by
  unfold handleReadReq at hdata
  split at hdata
  · cases hdata
  · dsimp only at hdata
    split at hdata
    · cases hdata
    · rename_i bytes access hread
      cases hdata
      exact h.memory.length_of_read _ hread

theorem length_handleReadReq_le {data : List UInt8}
    (hdata : (handleReadReq h payload ext).result = .ok data) : data.length ≤ 2 ^ 32 := by
  rw [length_handleReadReq h payload ext hdata]
  exact (readLen_lt payload).le

theorem length_handleAtomic (verb : Verb) (operandBytes : ℕ)
    (act : Memory → DeviceRef → UInt64 → Except UbError (UInt64 × Memory × Access))
    (payload : List UInt8) (ext : DataExtHeader) {data : List UInt8}
    (hdata : (handleAtomic h verb operandBytes act payload ext).result = .ok data) :
    data.length = 16 := by
  unfold handleAtomic at hdata
  split at hdata
  · cases hdata
  · dsimp only at hdata
    split_ifs at hdata
    split at hdata
    · cases hdata
    · cases hdata
      simp [atomicReply]

theorem length_handleAtomic_le (verb : Verb) (operandBytes : ℕ)
    (act : Memory → DeviceRef → UInt64 → Except UbError (UInt64 × Memory × Access))
    (payload : List UInt8) (ext : DataExtHeader) (data : List UInt8)
    (hdata : (handleAtomic h verb operandBytes act payload ext).result = .ok data) :
    data.length ≤ 2 ^ 32 := by
  rw [length_handleAtomic h verb operandBytes act payload ext hdata]
  decide

/-! ## The engine -/

def buildDataFrameWithFlags? (srcNode dstNode : UInt16) (verb : Verb) (mrHandle : UInt32)
    (ubAddr : UbAddr) (opaqueId : UInt64) (payload : List UInt8) (extFlags : ExtFlags) :
    Option (List UInt8) :=
  encodeFrame?
    { magic := magic, version := version, frameType := .data, flags := FrameFlags.empty
      srcNode, dstNode, reserved := 0, streamSeq := 0
      payloadLen := UInt32.ofNat payload.length, headerCrc := 0 }
    (some
      { verb, extFlags, mrHandle, jettySrc := 0, jettyDst := 0, opaqueId, fragId := 0
        fragIndex := 0, fragTotal := 1, ubAddr, imm := none })
    payload

namespace DataPlaneEngine

variable (e : DataPlaneEngine)

def respond? (now : Instant) (remoteNode : UInt16) (ext : DataExtHeader) (verb : Verb)
    (result : Except UbStatus (List UInt8)) :
    Option (DataPlaneEngine × List (UInt16 × List UInt8)) :=
  match result with
  | .error status => do
    let frame ← buildDataFrameWithFlags? e.localNodeId remoteNode ext.verb ext.mrHandle ext.ubAddr
      ext.opaqueId (BigEndian.put 4 status.toNat) ExtFlags.errResp
    return (e.sendFrameToPeer remoteNode frame, [(remoteNode, frame)])
  | .ok data => do
    let frame ← buildDataFrameWithFlags? e.localNodeId remoteNode verb ext.mrHandle ext.ubAddr
      ext.opaqueId data ExtFlags.empty
    let transport ← e.transport.readCacheInsert? now remoteNode (remoteNode, ext.opaqueId) frame
    return ({ e with transport }.sendFrameToPeer remoteNode frame, [(remoteNode, frame)])

def resendCached? (now : Instant) (remoteNode : UInt16) (opaqueId : UInt64) :
    Option (DataPlaneEngine × Option (List UInt8)) := do
  let (transport, cached) ← e.transport.readCacheGet? now remoteNode (remoteNode, opaqueId)
  let e := { e with transport }
  match cached with
  | some frame => return (e.sendFrameToPeer remoteNode frame, some frame)
  | none => return (e, none)

def dispatchWrite? (remoteNode : UInt16) (seq : ℕ)
    (run? : Host → Option (Handled (Option String))) : Option Dispatched :=
  if e.transport.isExecuted remoteNode seq then some { engine := e }
  else do
    let handled ← run? e.host
    return {
      engine :=
        { e with host := handled.host, transport := e.transport.markExecuted remoteNode seq }
      executed := true
      access := handled.access }

def dispatchAtomic? (now : Instant) (remoteNode : UInt16) (seq : ℕ) (ext : DataExtHeader)
    (respVerb : Verb) (run? : Host → Option (Handled (Except UbStatus (List UInt8)))) :
    Option Dispatched :=
  if e.transport.isExecuted remoteNode seq then do
    let (e, cached) ← e.resendCached? now remoteNode ext.opaqueId
    return { engine := e, sent := (cached.map fun frame => (remoteNode, frame)).toList }
  else do
    let handled ← run? e.host
    let (e, sent) ←
      { e with host := handled.host }.respond? now remoteNode ext respVerb handled.result
    return {
      engine := { e with transport := e.transport.markExecuted remoteNode seq }
      executed := true
      access := handled.access
      sent }

def dispatchReadReq? (now : Instant) (remoteNode : UInt16) (payload : List UInt8)
    (ext : DataExtHeader) : Option Dispatched := do
  match ← e.resendCached? now remoteNode ext.opaqueId with
  | (e, some frame) => return { engine := e, sent := [(remoteNode, frame)] }
  | (e, none) =>
    let handled ← handleReadReq? e.host payload ext
    let (e, sent) ←
      { e with host := handled.host }.respond? now remoteNode ext .readResp handled.result
    return { engine := e, access := handled.access, sent }

/-- The status is a slice turned into an array and unwrapped. -/
def completePendingRequest? (ext : DataExtHeader) (payload : List UInt8) (remoteNode : UInt16) :
    Option Dispatched :=
  match e.pendingRequests.lookup ext.opaqueId with
  | none => some { engine := e }
  | some call => do
    let isError := ext.extFlags.contains ExtFlags.errResp
    let status : UbStatus ←
      if isError ∧ payload.length ≥ 4 then
        ((Checked.slice payload 0 4).bind (Checked.ofLength 4)).map fun bytes =>
          UInt32.ofNat (BigEndian.get bytes)
      else some 0
    let data := if isError then [] else payload
    return {
      engine :=
        { e with
          pendingRequests := e.pendingRequests.erase ext.opaqueId
          transport := e.transport.completeRequest remoteNode ext.opaqueId }
      completed := some (call, ⟨status, data⟩) }

def handleVerbFrame? (now : Instant) (inbound : InboundFrame) : Option Dispatched :=
  let remoteNode := inbound.header.srcNode
  let ext := inbound.ext
  match ext.verb with
  | .write => e.dispatchWrite? remoteNode inbound.seq fun h => handleWrite? h inbound.payload ext
  | .readReq => e.dispatchReadReq? now remoteNode inbound.payload ext
  | .atomicCas =>
    e.dispatchAtomic? now remoteNode inbound.seq ext .atomicCasResp fun h =>
      handleAtomicCas? h inbound.payload ext
  | .atomicFaa =>
    e.dispatchAtomic? now remoteNode inbound.seq ext .atomicFaaResp fun h =>
      handleAtomicFaa? h inbound.payload ext
  | .send => do
    let (host, consumed, _) ← handleSend? e.host inbound.payload ext
    return { engine := { e with host }, consumed }
  | .writeImm =>
    e.dispatchWrite? remoteNode inbound.seq fun h => handleWriteImm? h inbound.payload ext
  | .readResp | .atomicCasResp | .atomicFaaResp =>
    e.completePendingRequest? ext inbound.payload remoteNode

/-- Dispatches frames until one panics. -/
def dispatchAll? (now : Instant) :
    DataPlaneEngine → List InboundFrame → Option (DataPlaneEngine × List Dispatched)
  | e, [] => some (e, [])
  | e, f :: fs => do
    let d ← e.handleVerbFrame? now f
    let (e, ds) ← dispatchAll? now d.engine fs
    return (e, d :: ds)

def receive? (now : Instant) (raw : List UInt8) :
    Option (DataPlaneEngine × List Dispatched) := do
  let (transport, inbound) ← e.transport.handleIncoming? now raw
  dispatchAll? now { e with transport } inbound

/-- The device operation that the handler of a frame makes, if it gets to it. -/
def deviceCall (now : Instant) (inbound : InboundFrame) : Option DeviceCall :=
  let remoteNode := inbound.header.srcNode
  let ext := inbound.ext
  let executed := e.transport.isExecuted remoteNode inbound.seq
  match ext.verb with
  | .write | .writeImm => if executed then none else writeCall e.host ext.verb inbound.payload ext
  | .readReq =>
    if (e.transport.readCacheGet now remoteNode (remoteNode, ext.opaqueId)).2.isSome then none
    else readCall e.host inbound.payload ext
  | .atomicCas => if executed then none else atomicCall e.host .atomicCas 16 inbound.payload ext
  | .atomicFaa => if executed then none else atomicCall e.host .atomicFaa 8 inbound.payload ext
  | .send | .readResp | .atomicCasResp | .atomicFaaResp => none

/-- A frame that comes up from the network asks a device for a range that ends
beyond the 64-bit numbers. -/
def Overruns (now : Instant) (raw : List UInt8) : Prop :=
  let (transport, inbound) := e.transport.handleIncoming now raw
  ∃ f ∈ inbound, ¬ Fits ({ e with transport }.deviceCall now f)

instance (now : Instant) (raw : List UInt8) : Decidable (e.Overruns now raw) :=
  List.decidableBEx _ _

/-! ### One frame -/

theorem respond?_eq (hcaches : e.transport.CachesBelow) (now : Instant) (node : UInt16)
    (ext : DataExtHeader) (verb : Verb) {result : Except UbStatus (List UInt8)}
    (hresult : ∀ data, result = .ok data → data.length ≤ 2 ^ 32) :
    e.respond? now node ext verb result = some (e.respond now node ext verb result) := by
  cases result with
  | error status =>
    rw [respond?, buildDataFrameWithFlags?, encodeFrame?_eq _ _ (by simp)]
    rfl
  | ok data =>
    rw [respond?, buildDataFrameWithFlags?, encodeFrame?_eq _ _ (hresult data rfl)]
    dsimp only [Option.bind_eq_bind, Option.bind_some]
    rw [TransportManager.readCacheInsert?_eq hcaches]
    rfl

theorem resendCached?_eq (hcaches : e.transport.CachesBelow) (now : Instant) (node : UInt16)
    (opaqueId : UInt64) :
    e.resendCached? now node opaqueId = some (e.resendCached now node opaqueId) := by
  unfold resendCached? resendCached
  rw [TransportManager.readCacheGet?_eq hcaches]
  dsimp only [Option.bind_eq_bind, Option.bind_some]
  cases (e.transport.readCacheGet now node (node, opaqueId)).2 <;> rfl

theorem dispatchWrite?_eq {run? : Host → Option (Handled (Option String))}
    {run : Host → Handled (Option String)} {call : Option DeviceCall}
    (hrun : run? e.host = if Fits call then some (run e.host) else none) (node : UInt16)
    (seq : ℕ) :
    e.dispatchWrite? node seq run? =
      if Fits (if e.transport.isExecuted node seq then none else call) then
        some (e.dispatchWrite node seq run)
      else none := by
  unfold dispatchWrite? dispatchWrite
  cases e.transport.isExecuted node seq with
  | true => rfl
  | false =>
    simp only [Bool.false_eq_true, if_false]
    rw [hrun]
    exact bind_eq_of_fits Iff.rfl rfl

theorem dispatchAtomic?_eq (hcaches : e.transport.CachesBelow)
    {run? : Host → Option (Handled (Except UbStatus (List UInt8)))}
    {run : Host → Handled (Except UbStatus (List UInt8))} {call : Option DeviceCall}
    (hrun : run? e.host = if Fits call then some (run e.host) else none)
    (hresult : ∀ data, (run e.host).result = .ok data → data.length ≤ 2 ^ 32)
    (now : Instant) (node : UInt16) (seq : ℕ) (ext : DataExtHeader) (respVerb : Verb) :
    e.dispatchAtomic? now node seq ext respVerb run? =
      if Fits (if e.transport.isExecuted node seq then none else call) then
        some (e.dispatchAtomic now node seq ext respVerb run)
      else none := by
  unfold dispatchAtomic? dispatchAtomic
  cases e.transport.isExecuted node seq with
  | true =>
    simp only [if_true]
    rw [e.resendCached?_eq hcaches]
    rfl
  | false =>
    simp only [Bool.false_eq_true, if_false]
    rw [hrun]
    apply bind_eq_of_fits Iff.rfl
    have hrespond := respond?_eq { e with host := (run e.host).host } hcaches now node ext respVerb
      hresult
    rw [hrespond]
    rfl

theorem resendCached_of_none {now : Instant} {node : UInt16} {opaqueId : UInt64}
    (h : (e.transport.readCacheGet now node (node, opaqueId)).2 = none) :
    e.resendCached now node opaqueId =
      ({ e with transport := (e.transport.readCacheGet now node (node, opaqueId)).1 }, none) := by
  simp [resendCached, h]

theorem resendCached_of_some {now : Instant} {node : UInt16} {opaqueId : UInt64}
    {frame : List UInt8}
    (h : (e.transport.readCacheGet now node (node, opaqueId)).2 = some frame) :
    (e.resendCached now node opaqueId).2 = some frame := by
  simp [resendCached, h]

theorem dispatchReadReq?_eq (hcaches : e.transport.CachesBelow) (now : Instant) (node : UInt16)
    (payload : List UInt8) (ext : DataExtHeader) :
    e.dispatchReadReq? now node payload ext =
      if Fits (if (e.transport.readCacheGet now node (node, ext.opaqueId)).2.isSome then none
          else readCall e.host payload ext) then
        some (e.dispatchReadReq now node payload ext)
      else none := by
  unfold dispatchReadReq? dispatchReadReq
  rw [e.resendCached?_eq hcaches]
  dsimp only [Option.bind_eq_bind, Option.bind_some]
  cases hcached : (e.transport.readCacheGet now node (node, ext.opaqueId)).2 with
  | some frame =>
    obtain ⟨e', hresend⟩ : ∃ e', e.resendCached now node ext.opaqueId = (e', some frame) :=
      ⟨_, Prod.ext rfl (e.resendCached_of_some hcached)⟩
    rw [hresend]
    rfl
  | none =>
    rw [e.resendCached_of_none hcached]
    simp only [Option.isSome_none, Bool.false_eq_true, if_false]
    rw [handleReadReq?_eq]
    apply bind_eq_of_fits Iff.rfl
    have hrespond := respond?_eq
      { e with
        host := (handleReadReq e.host payload ext).host
        transport := (e.transport.readCacheGet now node (node, ext.opaqueId)).1 }
      (hcaches.readCacheGet_of_none hcached) now node ext .readResp
      (fun data => length_handleReadReq_le e.host payload ext)
    rw [hrespond]
    rfl

theorem completePendingRequest?_eq (ext : DataExtHeader) (payload : List UInt8)
    (node : UInt16) :
    e.completePendingRequest? ext payload node =
      some (e.completePendingRequest ext payload node) := by
  unfold completePendingRequest? completePendingRequest
  cases e.pendingRequests.lookup ext.opaqueId with
  | none => rfl
  | some call =>
    dsimp only
    by_cases hstatus : ext.extFlags.contains ExtFlags.errResp ∧ payload.length ≥ 4
    · have hslice : Checked.slice payload 0 4 = some (Bytes.slice payload 0 4) :=
        Checked.slice_eq_some (Nat.zero_le _) hstatus.2
      rw [if_pos hstatus, if_pos hstatus, hslice, Option.bind_some,
        Checked.ofLength_slice (by omega)]
      rfl
    · rw [if_neg hstatus, if_neg hstatus]
      rfl

theorem handleVerbFrame?_eq (hcaches : e.transport.CachesBelow) (now : Instant)
    (f : InboundFrame) :
    e.handleVerbFrame? now f =
      if Fits (e.deviceCall now f) then some (e.handleVerbFrame now f) else none := by
  cases hverb : f.ext.verb with
  | write =>
    simp only [handleVerbFrame?, handleVerbFrame, deviceCall, hverb]
    apply e.dispatchWrite?_eq
    exact handleWrite?_eq _ _ _
  | writeImm =>
    simp only [handleVerbFrame?, handleVerbFrame, deviceCall, hverb]
    apply e.dispatchWrite?_eq
    exact handleWriteImm?_eq _ _ _
  | readReq =>
    simp only [handleVerbFrame?, handleVerbFrame, deviceCall, hverb]
    exact e.dispatchReadReq?_eq hcaches _ _ _ _
  | atomicCas =>
    simp only [handleVerbFrame?, handleVerbFrame, deviceCall, hverb]
    apply e.dispatchAtomic?_eq hcaches
    · exact handleAtomicCas?_eq _ _ _
    · exact length_handleAtomic_le _ _ _ _ _ _
  | atomicFaa =>
    simp only [handleVerbFrame?, handleVerbFrame, deviceCall, hverb]
    apply e.dispatchAtomic?_eq hcaches
    · exact handleAtomicFaa?_eq _ _ _
    · exact length_handleAtomic_le _ _ _ _ _ _
  | send => simp [handleVerbFrame?, handleVerbFrame, deviceCall, hverb, handleSend?_eq, Fits]
  | readResp | atomicCasResp | atomicFaaResp =>
    simp [handleVerbFrame?, handleVerbFrame, deviceCall, hverb, completePendingRequest?_eq, Fits]

/-- At most one frame is dispatched: it panics or the run goes through. -/
theorem dispatchAll?_eq (hcaches : e.transport.CachesBelow) (now : Instant)
    {inbound : List InboundFrame} (hlength : inbound.length ≤ 1) :
    dispatchAll? now e inbound =
      if ∃ f ∈ inbound, ¬ Fits (e.deviceCall now f) then none
      else some (Runs.run (dispatchStep now) e inbound) := by
  cases inbound with
  | nil => simp [dispatchAll?]
  | cons f rest =>
    obtain rfl : rest = [] := List.length_eq_zero_iff.mp (by simpa using hlength)
    rw [dispatchAll?, e.handleVerbFrame?_eq hcaches]
    by_cases hfits : Fits (e.deviceCall now f)
    · simp [hfits, dispatchAll?, dispatchStep]
    · simp [hfits]

theorem receive?_eq (hcalm : e.transport.Calm) (now : Instant) (raw : List UInt8) :
    e.receive? now raw = if e.Overruns now raw then none else some (e.receive now raw) := by
  rw [receive?, TransportManager.handleIncoming?_eq hcalm]
  exact dispatchAll?_eq { e with transport := (e.transport.handleIncoming now raw).1 }
    (hcalm.cachesBelow.handleIncoming now raw) now (e.transport.handleIncoming_length_le now raw)

/-! ## Nodes that were set up -/

/-- The calls that bring a node into service. -/
inductive SetupCall
  | register (c : Registration)
  | create
  | postRecv (handle : UInt32) (buf : List UInt8) (wrId : UInt64)
  | createSession (remoteNode : UInt16) (epoch initialCredits : UInt32)
  | registerPeerSender (nodeId : UInt16) (sender : Sender)

/-- A refused call changes nothing. -/
def setupStep (e : DataPlaneEngine) : SetupCall → DataPlaneEngine
  | .register c =>
    { e with
      host := { e.host with mrTable := registerCall e.host.memory e.host.mrTable c } }
  | .create => { e with host := { e.host with jettyTable := e.host.jettyTable.create.1 } }
  | .postRecv handle buf wrId =>
    match e.host.jettyTable.lookup handle with
    | none => e
    | some jetty =>
      match jetty.postRecv buf wrId with
      | .error _ => e
      | .ok jetty =>
        { e with
          host := { e.host with jettyTable := e.host.jettyTable.store jetty handle } }
  | .createSession remoteNode epoch initialCredits =>
    match e.transport.createSession remoteNode epoch initialCredits with
    | .error _ => e
    | .ok transport => { e with transport }
  | .registerPeerSender nodeId sender =>
    { e with transport := e.transport.registerPeerSender nodeId sender }

def setup (calls : List SetupCall) : DataPlaneEngine := calls.foldl setupStep e

theorem calm_setupStep (h : e.transport.Calm) (call : SetupCall) :
    (e.setupStep call).transport.Calm := by
  cases call with
  | register c => exact h
  | create => exact h
  | registerPeerSender nodeId sender => exact h
  | postRecv handle buf wrId =>
    unfold setupStep
    dsimp only
    split
    · exact h
    · split
      · exact h
      · exact h
  | createSession remoteNode epoch initialCredits =>
    unfold setupStep
    dsimp only
    split
    · exact h
    · rename_i transport hcreate
      exact h.createSession hcreate

theorem calm_setup (h : e.transport.Calm) (calls : List SetupCall) :
    (e.setup calls).transport.Calm := by
  induction calls generalizing e with
  | nil => exact h
  | cons call calls ih => exact ih (e.setupStep call) (e.calm_setupStep h call)

end DataPlaneEngine

open DataPlaneEngine

/-- A node whose tables are empty and which knows no peers. -/
def emptyNode (podId nodeId : UInt16) (memory : Memory) (jfrDepth jfcDepth : UInt32)
    (mrCache : MrCacheTable) (config : TransportConfig) : DataPlaneEngine :=
  .new nodeId ⟨MrTable.new podId nodeId, memory, JettyTable.new nodeId jfrDepth jfcDepth⟩ mrCache
    (TransportManager.new nodeId config)

/-- Whatever bytes arrive at a node that was set up in whatever way, it panics
exactly if they overrun a device, and otherwise does what the model says. -/
theorem receive_panics_only_on_overrun (podId nodeId : UInt16) (memory : Memory)
    (jfrDepth jfcDepth : UInt32) (mrCache : MrCacheTable) (config : TransportConfig)
    (calls : List SetupCall) (now : Instant) (raw : List UInt8) :
    let e := (emptyNode podId nodeId memory jfrDepth jfcDepth mrCache config).setup calls
    e.receive? now raw = if e.Overruns now raw then none else some (e.receive now raw) := by
  intro e
  apply receive?_eq
  apply calm_setup
  intro key session hlookup
  cases hlookup

/-- Node 1 with one writable region of sixteen bytes. -/
def writableNode : DataPlaneEngine :=
  (emptyNode 1 1 (fun _ => ⟨.memory, 0, List.replicate 16 0⟩) 16 16 MrCacheTable.new
    ⟨200, 8⟩).setup [.register ⟨0, 16, .write⟩]

/-- Node 2 writes one byte at an offset of that region. -/
def oneByteWrite (offset : UInt64) : List UInt8 :=
  buildDataFrame 2 1 .write 1 (UbAddr.new 1 1 0 offset 0) 1 [7]

theorem receive_panics_only_on_overrun_write :
    writableNode.receive? 0 (oneByteWrite 3) = some (writableNode.receive 0 (oneByteWrite 3)) := by
  have hfits : ¬ writableNode.Overruns 0 (oneByteWrite 3) := by decide +kernel
  exact (receive_panics_only_on_overrun 1 1 _ 16 16 _ _ [.register ⟨0, 16, .write⟩] 0
    (oneByteWrite 3)).trans (if_neg hfits)

/-- The last offset plus one byte overflows before the bounds are compared. -/
theorem write_at_last_offset_panics :
    writableNode.receive? 0 (oneByteWrite 0xFFFFFFFFFFFFFFFF) = none := by
  rw [← Option.isNone_iff_eq_none]
  decide +kernel

end DataPlane
end UniBus
