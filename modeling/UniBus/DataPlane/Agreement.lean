import UniBus.DataPlane.Correlation
import UniBus.DataPlane.ErrorReplies
import UniBus.DataPlane.Registration

/-!
# Local and remote verbs

The same operation on a region, made by a local verb at its owner and by a frame
of another node. The two find the region in different ways, by address and by
handle, and check it in different ways. For a given table they agree on every
memory exactly when the two ways lead to the same device.
-/
namespace UniBus.DataPlane

open Wire

def maxPayloadSize : ℕ := 1320

/-- A verb with its operands. -/
inductive VerbOp
  | write (buf : List UInt8)
  | read (len : UInt32)
  | atomicCas (expect new : UInt64)
  | atomicFaa (add : UInt64)
  deriving DecidableEq, Repr

inductive VerbValue
  | done
  | bytes (data : List UInt8)
  | word (old : UInt64)
  deriving DecidableEq, Repr

/-! ## The frames of the requester -/

/-- What a frame carries for the handler. -/
def openFrame (raw : List UInt8) : Option (DataExtHeader × List UInt8) :=
  match decodeFrame raw with
  | .ok (_, some ext, payload) => some (ext, payload)
  | _ => none

/-- The response that `complete_pending_request` makes of a frame. -/
def verbResponse (ext : DataExtHeader) (payload : List UInt8) : VerbResponse :=
  let isError := ext.extFlags.contains ExtFlags.errResp
  ⟨if isError ∧ payload.length ≥ 4 then UInt32.ofNat (BigEndian.get (payload.take 4)) else 0,
    if isError then [] else payload⟩

theorem completePendingRequest_completed (e : DataPlaneEngine) (ext : DataExtHeader)
    (payload : List UInt8) (node : UInt16) :
    (e.completePendingRequest ext payload node).completed =
      (e.pendingRequests.lookup ext.opaqueId).map fun call => (call, verbResponse ext payload) := by
  unfold DataPlaneEngine.completePendingRequest
  cases e.pendingRequests.lookup ext.opaqueId <;> rfl

/-- The response in a frame; only frames with a response verb complete a call. -/
def receivedResponse (raw : List UInt8) : Option VerbResponse :=
  match openFrame raw with
  | none => none
  | some (ext, payload) => if isResponseVerb ext.verb then some (verbResponse ext payload) else none

/-- The frame that answers a request, as `respond` sends it. -/
def responseFrame (owner requester : UInt16) (ext : DataExtHeader) (verb : Verb) :
    Except UbStatus (List UInt8) → List UInt8
  | .error status => errorResponse owner requester ext status
  | .ok data => buildDataFrame owner requester verb ext.mrHandle ext.ubAddr ext.opaqueId data

theorem respond_sent (e : DataPlaneEngine) (now : Instant) (node : UInt16) (ext : DataExtHeader)
    (verb : Verb) (result : Except UbStatus (List UInt8)) :
    (e.respond now node ext verb result).2 =
      [(node, responseFrame e.localNodeId node ext verb result)] := by
  cases result <;> rfl

/-- What `ub_read_remote` makes of a response. -/
def VerbResponse.readResult (r : VerbResponse) : Option VerbValue :=
  if r.status ≠ 0 then none else some (.bytes r.data)

/-- What the remote atomics make of a response: the first eight bytes. -/
def VerbResponse.atomicResult (r : VerbResponse) : Option VerbValue :=
  if r.status ≠ 0 then none
  else if r.data.length ≥ 8 then some (.word (UInt64.ofNat (BigEndian.get (r.data.take 8))))
  else none

namespace VerbOp

def verb : VerbOp → Verb
  | write _ => .write
  | read _ => .readReq
  | atomicCas .. => .atomicCas
  | atomicFaa _ => .atomicFaa

def payload : VerbOp → List UInt8
  | write buf => buf
  | read len => BigEndian.put 4 len.toNat
  | atomicCas expect new => BigEndian.put 8 expect.toNat ++ BigEndian.put 8 new.toNat
  | atomicFaa add => BigEndian.put 8 add.toNat

/-- Only writes are checked against the size of a frame. -/
def Fits : VerbOp → Prop
  | write buf => buf.length ≤ maxPayloadSize
  | _ => True

instance (op : VerbOp) : Decidable op.Fits := by
  cases op <;> unfold Fits <;> infer_instance

/-- The frame that the requester builds for a region and an address; a write that
is too long is refused. Writes carry no identifier. -/
def request (requester owner : UInt16) (handle : UInt32) (addr : UbAddr) (opaqueId : UInt64)
    (op : VerbOp) : Option (List UInt8) :=
  if op.Fits then
    some (buildDataFrame requester owner op.verb handle addr
      (if op.verb = .write then 0 else opaqueId) op.payload)
  else none

/-- The handler of the verb at the owner, and what the requester gets from the
frame that answers it. A write is answered by no frame; it succeeds when its
handler has nothing to warn of. -/
def serve (h : Host) (owner requester : UInt16) (ext : DataExtHeader) (payload : List UInt8) :
    VerbOp → Memory × Option VerbValue
  | write _ =>
    let handled := handleWrite h payload ext
    (handled.host.memory, if handled.result.isNone then some .done else none)
  | read _ =>
    let handled := handleReadReq h payload ext
    (handled.host.memory,
      (receivedResponse (responseFrame owner requester ext .readResp handled.result)).bind
        VerbResponse.readResult)
  | atomicCas .. =>
    let handled := handleAtomicCas h payload ext
    (handled.host.memory,
      (receivedResponse (responseFrame owner requester ext .atomicCasResp handled.result)).bind
        VerbResponse.atomicResult)
  | atomicFaa _ =>
    let handled := handleAtomicFaa h payload ext
    (handled.host.memory,
      (receivedResponse (responseFrame owner requester ext .atomicFaaResp handled.result)).bind
        VerbResponse.atomicResult)

/-- The operation made by another node, for the region with the handle. -/
def runRemote (h : Host) (owner requester : UInt16) (handle : UInt32) (addr : UbAddr)
    (opaqueId : UInt64) (op : VerbOp) : Memory × Option VerbValue :=
  match (op.request requester owner handle addr opaqueId).bind openFrame with
  | none => (h.memory, none)
  | some (ext, payload) => op.serve h owner requester ext payload

def runLocal (h : Host) (addr : UbAddr) : VerbOp → Memory × Option VerbValue
  | write buf =>
    match ubWriteSync h.mrTable h.memory addr buf with
    | .error _ => (h.memory, none)
    | .ok (memory, _) => (memory, some .done)
  | read len =>
    match ubReadSync h.mrTable h.memory addr len.toNat with
    | .error _ => (h.memory, none)
    | .ok (data, _) => (h.memory, some (.bytes data))
  | atomicCas expect new =>
    match ubAtomicCasSync h.mrTable h.memory addr expect new with
    | .error _ => (h.memory, none)
    | .ok (old, memory, _) => (memory, some (.word old))
  | atomicFaa add =>
    match ubAtomicFaaSync h.mrTable h.memory addr add with
    | .error _ => (h.memory, none)
    | .ok (old, memory, _) => (memory, some (.word old))

end VerbOp

/-! ## The wire -/

/-- The header that comes out of a frame without immediate. -/
def plainExt (verb : Verb) (extFlags : ExtFlags) (handle : UInt32) (addr : UbAddr)
    (opaqueId : UInt64) : DataExtHeader :=
  ⟨verb, extFlags, handle, 0, 0, opaqueId, 0, 0, 1, addr, none⟩

@[simp] theorem plainExt_ubAddr (verb : Verb) (extFlags : ExtFlags) (handle : UInt32)
    (addr : UbAddr) (opaqueId : UInt64) :
    (plainExt verb extFlags handle addr opaqueId).ubAddr = addr := rfl

theorem decodeFrame_build (src dst : UInt16) (verb : Verb) (handle : UInt32) (addr : UbAddr)
    (opaqueId : UInt64) (payload : List UInt8) (extFlags : ExtFlags) (hknown : extFlags.Known)
    (himm : false = extFlags.contains ExtFlags.hasImm) :
    decodeFrame (buildDataFrameWithFlags src dst verb handle addr opaqueId payload extFlags) =
      .ok (dataHeader src dst payload, some (plainExt verb extFlags handle addr opaqueId),
        payload) := by
  have hflags : FrameFlags.empty.Known := by decide
  have hheader : (dataHeader src dst payload).WellFormed := ⟨rfl, rfl, hflags⟩
  have hext : (plainExt verb extFlags handle addr opaqueId).WellFormed := ⟨hknown, himm⟩
  exact decodeFrame_encode_data hheader rfl hext payload

theorem openFrame_build (src dst : UInt16) (verb : Verb) (handle : UInt32) (addr : UbAddr)
    (opaqueId : UInt64) (payload : List UInt8) (extFlags : ExtFlags) (hknown : extFlags.Known)
    (himm : false = extFlags.contains ExtFlags.hasImm) :
    openFrame (buildDataFrameWithFlags src dst verb handle addr opaqueId payload extFlags) =
      some (plainExt verb extFlags handle addr opaqueId, payload) := by
  unfold openFrame
  rw [decodeFrame_build src dst verb handle addr opaqueId payload extFlags hknown himm]

section
variable (owner requester : UInt16) {ext : DataExtHeader} {verb : Verb}

theorem receivedResponse_ok (hverb : isResponseVerb verb = true) (data : List UInt8) :
    receivedResponse (responseFrame owner requester ext verb (.ok data)) = some ⟨0, data⟩ := by
  have hopen := openFrame_build owner requester verb ext.mrHandle ext.ubAddr ext.opaqueId data
    ExtFlags.empty (by decide) (by decide)
  have herr : ExtFlags.empty.contains ExtFlags.errResp = false := by decide
  rw [receivedResponse, responseFrame, buildDataFrame, hopen]
  simp [plainExt, hverb, verbResponse, herr]

/-- A status travels with the verb of the request and completes no call. -/
theorem receivedResponse_error (hrequest : isResponseVerb ext.verb = false) (status : UbStatus) :
    receivedResponse (responseFrame owner requester ext verb (.error status)) = none := by
  have hopen := openFrame_build owner requester ext.verb ext.mrHandle ext.ubAddr ext.opaqueId
    (BigEndian.put 4 status.toNat) ExtFlags.errResp (by decide) (by decide)
  rw [receivedResponse, responseFrame, errorResponse, hopen]
  simp [plainExt, hrequest]

end

theorem VerbOp.runRemote_eq (h : Host) (owner requester : UInt16) (handle : UInt32)
    (addr : UbAddr) (opaqueId : UInt64) (op : VerbOp) :
    op.runRemote h owner requester handle addr opaqueId =
      if op.Fits then op.serve h owner requester (plainExt op.verb ExtFlags.empty handle addr
        (if op.verb = .write then 0 else opaqueId)) op.payload
      else (h.memory, none) := by
  by_cases hfits : op.Fits
  · have hopen := openFrame_build requester owner op.verb handle addr
      (if op.verb = .write then 0 else opaqueId) op.payload ExtFlags.empty (by decide) (by decide)
    rw [if_pos hfits, runRemote, request, if_pos hfits, Option.bind_some, buildDataFrame, hopen]
  · rw [if_neg hfits, runRemote, request, if_neg hfits, Option.bind_none]

/-! ## Where an operation goes -/

namespace VerbOp

def onDevice (d : Device) (offset : UInt64) : VerbOp → Option (Device × VerbValue)
  | write buf => (d.write offset buf).toOption.map fun d => (d, .done)
  | read len => (d.read offset len.toNat).toOption.map fun data => (d, .bytes data)
  | atomicCas expect new =>
    (d.atomicCas offset expect new).toOption.map fun (old, d) => (d, .word old)
  | atomicFaa add => (d.atomicFaa offset add).toOption.map fun (old, d) => (d, .word old)

/-- The operation on the device it goes to, if it goes to one. -/
def onTarget (m : Memory) (target : Option DeviceRef) (offset : UInt64) (op : VerbOp) :
    Memory × Option VerbValue :=
  match target with
  | none => (m, none)
  | some r =>
    match op.onDevice (m r) offset with
    | none => (m, none)
    | some (d, value) => (Function.update m r d, some value)

/-- Atomics need an offset that is a multiple of eight. -/
def IsAtomic : VerbOp → Prop
  | atomicCas .. | atomicFaa _ => True
  | _ => False

instance (op : VerbOp) : Decidable op.IsAtomic := by
  cases op <;> unfold IsAtomic <;> infer_instance

def Permitted (op : VerbOp) (e : MrEntry) : Prop :=
  e.perms.contains (MrEntry.requiredPerms op.verb) = true

instance (op : VerbOp) (e : MrEntry) : Decidable (op.Permitted e) :=
  inferInstanceAs (Decidable (_ = true))

/-- Where the local verb goes: to the device of the region found by the address,
in whatever state it is. -/
def localTarget (t : MrTable) (addr : UbAddr) (op : VerbOp) : Option DeviceRef :=
  if op.IsAtomic ∧ addr.offset % 8 ≠ 0 then none
  else
    match t.lookupByAddr addr with
    | none => none
    | some (e, _) => if op.Permitted e then some e.device else none

/-- Where the frame goes: to the device of the region with the handle if that is
active, and for atomics only if its base is aligned too. -/
def remoteTarget (t : MrTable) (handle : UInt32) (addr : UbAddr) (op : VerbOp) :
    Option DeviceRef :=
  if op.IsAtomic ∧ addr.offset % 8 ≠ 0 then none
  else
    match t.lookup handle with
    | none => none
    | some e =>
      if op.Fits ∧ (t.cells e.handle).state = .active ∧ op.Permitted e ∧
          (op.IsAtomic → e.baseOffset % 8 = 0) then some e.device
      else none

end VerbOp

/-! ## The operands -/

theorem ofNat_get_put (w : UInt64) :
    UInt64.ofNat (BigEndian.get (BigEndian.put 8 w.toNat)) = w := by
  have hlt : w.toNat < 256 ^ 8 := w.toNat_lt
  rw [BigEndian.get_put, Nat.mod_eq_of_lt hlt, UInt64.ofNat_toNat]

theorem operand_zero (w : UInt64) (rest : List UInt8) :
    operand (BigEndian.put 8 w.toNat ++ rest) 0 = w := by
  have hslice : Bytes.slice (BigEndian.put 8 w.toNat ++ rest) (8 * 0) 8 =
      BigEndian.put 8 w.toNat := List.take_left' (BigEndian.length_put 8 w.toNat)
  rw [operand, hslice, ofNat_get_put]

theorem operand_one (v w : UInt64) :
    operand (BigEndian.put 8 v.toNat ++ BigEndian.put 8 w.toNat) 1 = w := by
  have hslice : Bytes.slice (BigEndian.put 8 v.toNat ++ BigEndian.put 8 w.toNat) (8 * 1) 8 =
      BigEndian.put 8 w.toNat := by
    rw [Bytes.slice, List.drop_left' (BigEndian.length_put 8 v.toNat)]
    exact List.take_of_length_le (by simp)
  rw [operand, hslice, ofNat_get_put]

theorem atomicResult_atomicReply (old : UInt64) :
    VerbResponse.atomicResult ⟨0, atomicReply old⟩ = some (.word old) := by
  have htake : (atomicReply old).take 8 = BigEndian.put 8 old.toNat := by
    rw [atomicReply, List.append_assoc]
    exact List.take_left' (BigEndian.length_put 8 old.toNat)
  have hlen : (atomicReply old).length ≥ 8 := by simp [atomicReply]
  simp [VerbResponse.atomicResult, hlen, htake, ofNat_get_put]

/-! ## The local verb -/

namespace VerbOp

section
variable {t : MrTable} {e : MrEntry} {addr : UbAddr} {offsetInMr : UInt64}

theorem baseOffset_add_of_lookupByAddr (h : t.lookupByAddr addr = some (e, offsetInMr)) :
    e.baseOffset + offsetInMr = addr.offset := by
  rw [MrTable.lookupByAddr, Option.map_eq_some_iff] at h
  obtain ⟨found, -, hpair⟩ := h
  cases hpair
  rw [found.2.offset_baseUbAddr, UInt64.add_comm, UInt64.sub_add_cancel]

theorem checkPerms_eq (op : VerbOp) (e : MrEntry) :
    e.checkPerms op.verb = if op.Permitted e then .ok () else .error .permDenied := rfl

theorem resolveLocal_eq (t : MrTable) (addr : UbAddr) (op : VerbOp) :
    (∃ e, resolveLocal t addr op.verb = .ok (e, addr.offset) ∧
      t.lookupByAddr addr = some (e, addr.offset - e.baseOffset) ∧ op.Permitted e) ∨
    ((∃ err, resolveLocal t addr op.verb = .error err) ∧
      ∀ e off, t.lookupByAddr addr = some (e, off) → ¬ op.Permitted e) := by
  unfold resolveLocal
  cases hlookup : t.lookupByAddr addr with
  | none => exact Or.inr ⟨⟨_, rfl⟩, by simp⟩
  | some found =>
    obtain ⟨e, off⟩ := found
    have hoffset := baseOffset_add_of_lookupByAddr hlookup
    dsimp only
    rw [checkPerms_eq, hoffset]
    by_cases hperm : op.Permitted e
    · rw [if_pos hperm]
      refine Or.inl ⟨e, rfl, ?_, hperm⟩
      rw [← hoffset, UInt64.add_comm, UInt64.add_sub_cancel]
    · rw [if_neg hperm]
      refine Or.inr ⟨⟨_, rfl⟩, ?_⟩
      intro e' off' h
      cases h
      exact hperm

end

/-- A local verb that passes its own check of the alignment goes where it resolves to. -/
theorem runLocal_resolved (h : Host) (addr : UbAddr) (op : VerbOp)
    (halign : op.IsAtomic → addr.offset % 8 = 0) :
    op.runLocal h addr =
      match resolveLocal h.mrTable addr op.verb with
      | .error _ => (h.memory, none)
      | .ok (e, offset) => onTarget h.memory (some e.device) offset op := by
  cases op with
  | write buf =>
    simp only [runLocal, ubWriteSync, verb]
    cases resolveLocal h.mrTable addr .write with
    | error err => rfl
    | ok found =>
      simp only [Memory.write, onTarget, onDevice]
      cases (h.memory found.1.device).write found.2 buf <;> rfl
  | read len =>
    simp only [runLocal, ubReadSync, verb]
    cases resolveLocal h.mrTable addr .readReq with
    | error err => rfl
    | ok found =>
      simp only [Memory.read, onTarget, onDevice]
      cases (h.memory found.1.device).read found.2 len.toNat with
      | error err => rfl
      | ok data => simp [Except.map, Except.toOption]
  | atomicCas expect new =>
    simp only [runLocal, ubAtomicCasSync, verb, if_neg (not_not.mpr (halign trivial))]
    cases resolveLocal h.mrTable addr .atomicCas with
    | error err => rfl
    | ok found =>
      simp only [Memory.atomicCas, onTarget, onDevice]
      cases (h.memory found.1.device).atomicCas found.2 expect new <;> rfl
  | atomicFaa add =>
    simp only [runLocal, ubAtomicFaaSync, verb, if_neg (not_not.mpr (halign trivial))]
    cases resolveLocal h.mrTable addr .atomicFaa with
    | error err => rfl
    | ok found =>
      simp only [Memory.atomicFaa, onTarget, onDevice]
      cases (h.memory found.1.device).atomicFaa found.2 add <;> rfl

theorem runLocal_eq (h : Host) (addr : UbAddr) (op : VerbOp) :
    op.runLocal h addr =
      onTarget h.memory (localTarget h.mrTable addr op) addr.offset op := by
  by_cases hmis : op.IsAtomic ∧ addr.offset % 8 ≠ 0
  · rw [localTarget, if_pos hmis]
    cases op with
    | write buf => exact absurd hmis.1 id
    | read len => exact absurd hmis.1 id
    | atomicCas expect new => simp [runLocal, ubAtomicCasSync, hmis.2, onTarget]
    | atomicFaa add => simp [runLocal, ubAtomicFaaSync, hmis.2, onTarget]
  · rw [runLocal_resolved h addr op (fun hatomic => of_not_not fun hne => hmis ⟨hatomic, hne⟩),
      localTarget, if_neg hmis]
    rcases resolveLocal_eq h.mrTable addr op with ⟨e, hres, hlookup, hperm⟩ |
      ⟨⟨err, hres⟩, hrefused⟩
    · rw [hres, hlookup]
      dsimp only
      rw [if_pos hperm]
    · rw [hres]
      cases hlookup : h.mrTable.lookupByAddr addr with
      | none => rfl
      | some found =>
        dsimp only
        rw [if_neg (hrefused found.1 found.2 hlookup)]
        rfl

/-! ## The frame at the owner -/

section
variable {t : MrTable} {handle : UInt32} {e : MrEntry} {addr : UbAddr}

theorem deviceOffset_eq (hle : e.baseOffset ≤ addr.offset) : deviceOffset e addr = addr.offset := by
  rw [deviceOffset, offsetInMr, e.offset_baseUbAddr, if_pos hle, UInt64.add_comm,
    UInt64.sub_add_cancel]

/-- Given an aligned address, the offset in the region is aligned if the base is. -/
theorem offsetInMr_aligned_iff (hle : e.baseOffset ≤ addr.offset) (halign : addr.offset % 8 = 0) :
    offsetInMr e addr % 8 = 0 ↔ e.baseOffset % 8 = 0 := by
  have hle' := UInt64.le_iff_toNat_le.mp hle
  rw [offsetInMr, e.offset_baseUbAddr, if_pos hle, ← UInt64.toNat_inj, ← UInt64.toNat_inj,
    UInt64.toNat_mod, UInt64.toNat_mod, UInt64.toNat_sub_of_le _ _ hle]
  rw [← UInt64.toNat_inj, UInt64.toNat_mod] at halign
  have height : (8 : UInt64).toNat = 8 := rfl
  have hzero : (0 : UInt64).toNat = 0 := rfl
  rw [height, hzero] at halign ⊢
  omega

theorem acquire_cases (hlookup : t.lookup handle = some e) (op : VerbOp) :
    (((t.cells e.handle).state = .active ∧ op.Permitted e) ∧
      acquire t handle op.verb = .ok (e, t.inflightAdd e.handle 1)) ∨
    (¬ ((t.cells e.handle).state = .active ∧ op.Permitted e) ∧
      ∃ refusal, acquire t handle op.verb = .error refusal) := by
  unfold acquire MrTable.tryInflightInc
  rw [hlookup]
  dsimp only
  by_cases hactive : (t.cells e.handle).state = .active
  · rw [if_neg (not_not.mpr hactive)]
    dsimp only
    rw [checkPerms_eq]
    by_cases hperm : op.Permitted e
    · rw [if_pos hperm]
      exact Or.inl ⟨⟨hactive, hperm⟩, rfl⟩
    · rw [if_neg hperm]
      exact Or.inr ⟨fun h => hperm h.2, _, rfl⟩
  · rw [if_pos hactive]
    exact Or.inr ⟨fun h => hactive h.1, _, rfl⟩

variable {h : Host} (owner requester : UInt16) (opaqueId : UInt64)

theorem serve_refused (op : VerbOp) {refusal : Refusal}
    (hacq : acquire h.mrTable handle op.verb = .error refusal) :
    op.serve h owner requester (plainExt op.verb ExtFlags.empty handle addr opaqueId) op.payload =
      (h.memory, none) := by
  cases op with
  | write buf =>
    have hacq : acquire h.mrTable handle .write = .error refusal := hacq
    simp [serve, handleWrite, plainExt, verb, hacq]
  | read len =>
    have hacq : acquire h.mrTable handle .readReq = .error refusal := hacq
    simp only [serve, handleReadReq, plainExt, verb, hacq]
    rw [receivedResponse_error owner requester rfl, Option.bind_none]
  | atomicCas expect new =>
    have hacq : acquire h.mrTable handle .atomicCas = .error refusal := hacq
    simp only [serve, handleAtomicCas, handleAtomic, plainExt, verb, hacq]
    rw [receivedResponse_error owner requester rfl, Option.bind_none]
  | atomicFaa add =>
    have hacq : acquire h.mrTable handle .atomicFaa = .error refusal := hacq
    simp only [serve, handleAtomicFaa, handleAtomic, plainExt, verb, hacq]
    rw [receivedResponse_error owner requester rfl, Option.bind_none]

theorem serve_atomic (verb respVerb : Verb) (operandBytes : ℕ)
    (act : Memory → DeviceRef → UInt64 → Except UbError (UInt64 × Memory × Access))
    (payload : List UInt8) (ext : DataExtHeader) {t' : MrTable}
    (hacq : acquire h.mrTable ext.mrHandle verb = .ok (e, t'))
    (hle : e.baseOffset ≤ ext.ubAddr.offset) (hlen : operandBytes ≤ payload.length)
    (hresp : isResponseVerb respVerb = true) (hreq : isResponseVerb ext.verb = false) :
    ((handleAtomic h verb operandBytes act payload ext).host.memory,
      (receivedResponse (responseFrame owner requester ext respVerb
        (handleAtomic h verb operandBytes act payload ext).result)).bind
          VerbResponse.atomicResult) =
      if offsetInMr e ext.ubAddr % 8 = 0 then
        match act h.memory e.device ext.ubAddr.offset with
        | .error _ => (h.memory, none)
        | .ok (old, memory, _) => (memory, some (.word old))
      else (h.memory, none) := by
  have hlong : ¬ payload.length < operandBytes := Nat.not_lt.mpr hlen
  by_cases halign : offsetInMr e ext.ubAddr % 8 = 0
  · rw [if_pos halign]
    cases hact : act h.memory e.device ext.ubAddr.offset with
    | error err =>
      have hhandled : handleAtomic h verb operandBytes act payload ext =
          ⟨{ h with mrTable := t'.inflightDec e }, none, .error 9⟩ := by
        simp [handleAtomic, hacq, halign, hlong, deviceOffset_eq hle, hact]
      rw [hhandled, receivedResponse_error owner requester hreq, Option.bind_none]
    | ok result =>
      obtain ⟨old, memory, access⟩ := result
      have hhandled : handleAtomic h verb operandBytes act payload ext =
          ⟨{ h with mrTable := t'.inflightDec e, memory }, some access, .ok (atomicReply old)⟩ := by
        simp [handleAtomic, hacq, halign, hlong, deviceOffset_eq hle, hact]
      rw [hhandled, receivedResponse_ok owner requester hresp, Option.bind_some,
        atomicResult_atomicReply]
  · have hhandled : handleAtomic h verb operandBytes act payload ext =
        ⟨{ h with mrTable := t'.inflightDec e }, none, .error 3⟩ := by
      simp [handleAtomic, hacq, halign]
    rw [if_neg halign, hhandled, receivedResponse_error owner requester hreq, Option.bind_none]

/-- An operation that is admitted goes to the device of its region; an atomic only
if its offset in the region is aligned. -/
theorem serve_admitted (op : VerbOp) {t' : MrTable}
    (hacq : acquire h.mrTable handle op.verb = .ok (e, t')) (hle : e.baseOffset ≤ addr.offset) :
    op.serve h owner requester (plainExt op.verb ExtFlags.empty handle addr opaqueId) op.payload =
      if op.IsAtomic ∧ offsetInMr e addr % 8 ≠ 0 then (h.memory, none)
      else onTarget h.memory (some e.device) addr.offset op := by
  cases op with
  | write buf =>
    have hacq : acquire h.mrTable handle .write = .ok (e, t') := hacq
    rw [if_neg (fun hatomic => hatomic.1)]
    simp only [serve, handleWrite, plainExt, verb, payload, hacq, deviceOffset_eq hle,
      Memory.write, onTarget, onDevice]
    cases (h.memory e.device).write addr.offset buf <;> rfl
  | read len =>
    have hacq : acquire h.mrTable handle .readReq = .ok (e, t') := hacq
    rw [if_neg (fun hatomic => hatomic.1)]
    simp only [serve, handleReadReq, plainExt, verb, payload, hacq, deviceOffset_eq hle,
      readLen_put, Memory.read, onTarget, onDevice]
    cases (h.memory e.device).read addr.offset len.toNat with
    | error err =>
      simp only [Except.map, Except.toOption, Option.map_none]
      rw [receivedResponse_error owner requester rfl, Option.bind_none]
    | ok data =>
      simp only [Except.map, Except.toOption, Option.map_some, Function.update_eq_self]
      rw [receivedResponse_ok owner requester rfl]
      rfl
  | atomicCas expect new =>
    have hserved := serve_atomic owner requester .atomicCas .atomicCasResp 16
      (fun m r offset => m.atomicCas r offset expect new)
      (BigEndian.put 8 expect.toNat ++ BigEndian.put 8 new.toNat)
      (plainExt .atomicCas ExtFlags.empty handle addr opaqueId) hacq hle (by simp) rfl rfl
    simp only [serve, handleAtomicCas, payload, verb, operand_zero, operand_one]
    rw [hserved, plainExt_ubAddr]
    by_cases halign : offsetInMr e addr % 8 = 0
    · rw [if_pos halign, if_neg (fun hatomic => hatomic.2 halign)]
      simp only [Memory.atomicCas, onTarget, onDevice]
      cases (h.memory e.device).atomicCas addr.offset expect new <;> rfl
    · rw [if_neg halign, if_pos ⟨trivial, halign⟩]
  | atomicFaa add =>
    have hserved := serve_atomic owner requester .atomicFaa .atomicFaaResp 8
      (fun m r offset => m.atomicFaa r offset add) (BigEndian.put 8 add.toNat)
      (plainExt .atomicFaa ExtFlags.empty handle addr opaqueId) hacq hle (by simp) rfl rfl
    have hoperand := operand_zero add []
    rw [List.append_nil] at hoperand
    simp only [serve, handleAtomicFaa, payload, verb, hoperand]
    rw [hserved, plainExt_ubAddr]
    by_cases halign : offsetInMr e addr % 8 = 0
    · rw [if_pos halign, if_neg (fun hatomic => hatomic.2 halign)]
      simp only [Memory.atomicFaa, onTarget, onDevice]
      cases (h.memory e.device).atomicFaa addr.offset add <;> rfl
    · rw [if_neg halign, if_pos ⟨trivial, halign⟩]

theorem onDevice_misaligned {op : VerbOp} {offset : UInt64} (hatomic : op.IsAtomic)
    (hmis : offset % 8 ≠ 0) (d : Device) : op.onDevice d offset = none := by
  cases op with
  | write buf => exact absurd hatomic id
  | read len => exact absurd hatomic id
  | atomicCas expect new => simp [onDevice, Device.atomicCas_eq, hmis, Except.toOption]
  | atomicFaa add => simp [onDevice, Device.atomicFaa_eq, hmis, Except.toOption]

theorem onTarget_misaligned {op : VerbOp} {offset : UInt64} (hatomic : op.IsAtomic)
    (hmis : offset % 8 ≠ 0) (m : Memory) (target : Option DeviceRef) :
    onTarget m target offset op = (m, none) := by
  cases target with
  | none => rfl
  | some r => rw [onTarget, onDevice_misaligned hatomic hmis]

theorem remoteTarget_admitted {t : MrTable} {op : VerbOp} (hlookup : t.lookup handle = some e)
    (halign : op.IsAtomic → addr.offset % 8 = 0)
    (hall : op.Fits ∧ (t.cells e.handle).state = .active ∧ op.Permitted e ∧
      (op.IsAtomic → e.baseOffset % 8 = 0)) :
    remoteTarget t handle addr op = some e.device := by
  rw [remoteTarget, if_neg (fun hmis => hmis.2 (halign hmis.1)), hlookup]
  exact if_pos hall

theorem remoteTarget_refused {t : MrTable} {op : VerbOp} (hlookup : t.lookup handle = some e)
    (hnot : ¬(op.Fits ∧ (t.cells e.handle).state = .active ∧ op.Permitted e ∧
      (op.IsAtomic → e.baseOffset % 8 = 0))) :
    remoteTarget t handle addr op = none := by
  rw [remoteTarget, hlookup]
  dsimp only
  rw [if_neg hnot, ite_self]

/-- What becomes of a frame at the owner of its region. -/
inductive Fate (t : MrTable) (handle : UInt32) (e : MrEntry) (addr : UbAddr) (op : VerbOp) : Prop
  | tooLong (hfits : ¬op.Fits) (htarget : remoteTarget t handle addr op = none)
  | refused (hfits : op.Fits) (refusal : Refusal)
    (hacq : acquire t handle op.verb = .error refusal)
    (htarget : remoteTarget t handle addr op = none)
  | misaligned (hfits : op.Fits)
    (hacq : acquire t handle op.verb = .ok (e, t.inflightAdd e.handle 1)) (hatomic : op.IsAtomic)
    (hmis : offsetInMr e addr % 8 ≠ 0 ∨ addr.offset % 8 ≠ 0)
    (htarget : remoteTarget t handle addr op = none)
  | admitted (hfits : op.Fits)
    (hacq : acquire t handle op.verb = .ok (e, t.inflightAdd e.handle 1))
    (halign : ¬(op.IsAtomic ∧ offsetInMr e addr % 8 ≠ 0))
    (htarget : remoteTarget t handle addr op = some e.device)

theorem fate {t : MrTable} (hlookup : t.lookup handle = some e) (hle : e.baseOffset ≤ addr.offset)
    (op : VerbOp) : Fate t handle e addr op := by
  by_cases hfits : op.Fits
  · rcases acquire_cases hlookup op with ⟨hadmits, hacq⟩ | ⟨hrefused, refusal, hacq⟩
    · by_cases hatomic : op.IsAtomic
      · by_cases halign : addr.offset % 8 = 0
        · have hiff := offsetInMr_aligned_iff hle halign
          by_cases hbase : e.baseOffset % 8 = 0
          · exact .admitted hfits hacq (fun hne => hne.2 (hiff.mpr hbase))
              (remoteTarget_admitted hlookup (fun _ => halign)
                ⟨hfits, hadmits.1, hadmits.2, fun _ => hbase⟩)
          · exact .misaligned hfits hacq hatomic (Or.inl fun hzero => hbase (hiff.mp hzero))
              (remoteTarget_refused hlookup fun hall => hbase (hall.2.2.2 hatomic))
        · exact .misaligned hfits hacq hatomic (Or.inr halign) (if_pos ⟨hatomic, halign⟩)
      · exact .admitted hfits hacq (fun hne => hatomic hne.1)
          (remoteTarget_admitted hlookup (fun hyes => absurd hyes hatomic)
            ⟨hfits, hadmits.1, hadmits.2, fun hyes => absurd hyes hatomic⟩)
    · exact .refused hfits refusal hacq
        (remoteTarget_refused hlookup fun hall => hrefused ⟨hall.2.1, hall.2.2.1⟩)
  · exact .tooLong hfits (remoteTarget_refused hlookup fun hall => hfits hall.1)

theorem runRemote_eq_onTarget (hlookup : h.mrTable.lookup handle = some e)
    (hle : e.baseOffset ≤ addr.offset) (op : VerbOp) :
    op.runRemote h owner requester handle addr opaqueId =
      onTarget h.memory (remoteTarget h.mrTable handle addr op) addr.offset op := by
  rw [runRemote_eq]
  cases fate hlookup hle op with
  | tooLong hfits htarget =>
    rw [if_neg hfits, htarget]
    rfl
  | refused hfits refusal hacq htarget =>
    rw [if_pos hfits, serve_refused owner requester _ op hacq, htarget]
    rfl
  | misaligned hfits hacq hatomic hmis htarget =>
    rw [if_pos hfits, serve_admitted owner requester _ op hacq hle, htarget]
    rcases hmis with hmis | hmis
    · exact if_pos ⟨hatomic, hmis⟩
    · -- the handler lets it pass or not; the device does not
      rw [onTarget_misaligned hatomic hmis, ite_self]
      rfl
  | admitted hfits hacq halign htarget =>
    rw [if_pos hfits, serve_admitted owner requester _ op hacq hle, if_neg halign, htarget]

end

/-! ## When the two agree -/

def count : VerbOp → ℕ
  | write buf => buf.length
  | read len => len.toNat
  | atomicCas .. | atomicFaa _ => 8

/-- The operation goes to the same device, or to none, both ways; or it goes
somewhere both ways and covers no byte at the start of a device. -/
def SameTarget (t : MrTable) (handle : UInt32) (addr : UbAddr) (op : VerbOp) : Prop :=
  localTarget t addr op = remoteTarget t handle addr op ∨
    ((localTarget t addr op).isSome ∧ (remoteTarget t handle addr op).isSome ∧
      addr.offset = 0 ∧ op.count = 0)

instance (t : MrTable) (handle : UInt32) (addr : UbAddr) (op : VerbOp) :
    Decidable (op.SameTarget t handle addr) :=
  inferInstanceAs (Decidable (_ ∨ _))

theorem onDevice_isSome_iff (op : VerbOp) (d : Device) (offset : UInt64) :
    (op.onDevice d offset).isSome = true ↔
      (op.IsAtomic → offset % 8 = 0) ∧ offset.toNat + op.count ≤ d.capacity := by
  cases op with
  | write buf =>
    simp only [onDevice, Device.write_eq, IsAtomic, count, false_imp_iff, true_and]
    split_ifs with hfit <;> simp [hfit, Except.toOption]
  | read len =>
    simp only [onDevice, Device.read_eq, IsAtomic, count, false_imp_iff, true_and]
    split_ifs with hfit <;> simp [hfit, Except.toOption]
  | atomicCas expect new =>
    simp only [onDevice, Device.atomicCas_eq, IsAtomic, count, true_imp_iff]
    by_cases halign : offset % 8 = 0 <;> by_cases hfit : offset.toNat + 8 ≤ d.capacity <;>
      simp [halign, hfit, Except.toOption]
  | atomicFaa add =>
    simp only [onDevice, Device.atomicFaa_eq, IsAtomic, count, true_imp_iff]
    by_cases halign : offset % 8 = 0 <;> by_cases hfit : offset.toNat + 8 ≤ d.capacity <;>
      simp [halign, hfit, Except.toOption]

/-- A memory in which only the device at `r` has bytes, and just enough of them. -/
def onlyAt (r : DeviceRef) (size : ℕ) : Memory := fun q =>
  ⟨.memory, 0, if q = r then List.replicate size 0 else []⟩

theorem onTarget_isSome_iff (op : VerbOp) (m : Memory) (r : DeviceRef) (offset : UInt64) :
    (onTarget m (some r) offset op).2.isSome = true ↔
      (op.IsAtomic → offset % 8 = 0) ∧ offset.toNat + op.count ≤ (m r).capacity := by
  rw [← onDevice_isSome_iff, onTarget]
  cases op.onDevice (m r) offset <;> simp

/-- Two places an operation may go to are told apart by some memory, unless the
operation covers nothing and starts at offset zero. -/
theorem eq_of_onTarget_eq {op : VerbOp} {offset : UInt64}
    (halign : op.IsAtomic → offset % 8 = 0) {target target' : Option DeviceRef}
    (hsame : ∀ m, onTarget m target offset op = onTarget m target' offset op) :
    target = target' ∨ (target.isSome ∧ target'.isSome ∧ offset = 0 ∧ op.count = 0) := by
  have hserves : ∀ r, (onTarget (onlyAt r (offset.toNat + op.count)) (some r) offset op).2.isSome :=
    fun r => (onTarget_isSome_iff ..).mpr ⟨halign, by simp [onlyAt, Device.capacity]⟩
  cases target with
  | none =>
    cases target' with
    | none => exact Or.inl rfl
    | some r' =>
      have hsome := hserves r'
      rw [← hsame] at hsome
      exact absurd hsome Bool.false_ne_true
  | some r =>
    have hsome := hserves r
    rw [hsame] at hsome
    cases target' with
    | none => exact absurd hsome Bool.false_ne_true
    | some r' =>
      by_cases heq : r = r'
      · exact Or.inl (congrArg some heq)
      · -- the device at `r'` is empty here, so nothing but an empty operation fits it
        have hfit := ((onTarget_isSome_iff ..).mp hsome).2
        simp only [onlyAt, Device.capacity, if_neg (Ne.symm heq), List.length_nil,
          Nat.le_zero, Nat.add_eq_zero_iff] at hfit
        exact Or.inr ⟨rfl, rfl, UInt64.toNat_inj.mp hfit.1, hfit.2⟩

theorem onTarget_empty {op : VerbOp} (hcount : op.count = 0) (m : Memory) (r r' : DeviceRef) :
    onTarget m (some r) 0 op = onTarget m (some r') 0 op := by
  cases op with
  | write buf =>
    have hnil : buf = [] := List.length_eq_zero_iff.mp hcount
    subst hnil
    simp [onTarget, onDevice, Device.write_eq, Bytes.splice, Except.toOption]
  | read len =>
    have hzero : len.toNat = 0 := hcount
    simp [onTarget, onDevice, Device.read_eq, Bytes.slice, hzero, Except.toOption]
  | atomicCas expect new => exact absurd hcount (Nat.succ_ne_zero 7)
  | atomicFaa add => exact absurd hcount (Nat.succ_ne_zero 7)

theorem targets_misaligned {op : VerbOp} {addr : UbAddr} (hatomic : op.IsAtomic)
    (hmis : addr.offset % 8 ≠ 0) (t : MrTable) (handle : UInt32) :
    localTarget t addr op = none ∧ remoteTarget t handle addr op = none :=
  ⟨if_pos ⟨hatomic, hmis⟩, if_pos ⟨hatomic, hmis⟩⟩

/-- A verb run by a node on an address of its own, and the same verb run against
that node by a peer with a region's handle, agree on every memory — the same
value or the same refusal, and the same bytes afterwards — just in case both go
to the same device. -/
theorem local_and_remote_agree_iff (t : MrTable) (jettyTable : JettyTable)
    (owner requester : UInt16) (handle : UInt32) (e : MrEntry)
    (hlookup : t.lookup handle = some e) (addr : UbAddr) (hinside : Holds e addr)
    (opaqueId : UInt64) (op : VerbOp) :
    (∀ memory, op.runRemote ⟨t, memory, jettyTable⟩ owner requester handle addr opaqueId =
        op.runLocal ⟨t, memory, jettyTable⟩ addr) ↔
      op.SameTarget t handle addr := by
  have hle : e.baseOffset ≤ addr.offset := UInt64.le_iff_toNat_le.mpr hinside.2.2.1
  have hremote : ∀ memory,
      op.runRemote ⟨t, memory, jettyTable⟩ owner requester handle addr opaqueId =
        onTarget memory (remoteTarget t handle addr op) addr.offset op :=
    fun memory => runRemote_eq_onTarget owner requester opaqueId hlookup hle op
  have hlocal : ∀ memory, op.runLocal ⟨t, memory, jettyTable⟩ addr =
      onTarget memory (localTarget t addr op) addr.offset op := fun memory => runLocal_eq _ addr op
  constructor
  · intro hagree
    by_cases hmis : op.IsAtomic ∧ addr.offset % 8 ≠ 0
    · obtain ⟨hl, hr⟩ := targets_misaligned hmis.1 hmis.2 t handle
      exact Or.inl (hl.trans hr.symm)
    · have halign : op.IsAtomic → addr.offset % 8 = 0 :=
        fun hatomic => not_not.mp fun hne => hmis ⟨hatomic, hne⟩
      refine eq_of_onTarget_eq halign fun memory => ?_
      rw [← hlocal, ← hagree, hremote]
  · intro hsame memory
    rw [hremote, hlocal]
    rcases hsame with heq | ⟨hl, hr, hzero, hcount⟩
    · rw [heq]
    · obtain ⟨r, hr⟩ := Option.isSome_iff_exists.mp hr
      obtain ⟨r', hl⟩ := Option.isSome_iff_exists.mp hl
      rw [hl, hr, hzero]
      exact onTarget_empty hcount memory r r'

theorem local_and_remote_agree_two_regions :
    (write [7, 9]).SameTarget twoRegionHost.mrTable 1 (UbAddr.new 1 1 0 4 0) ∧
      (write [7, 9]).runRemote twoRegionHost 1 2 1 (UbAddr.new 1 1 0 4 0) 0 =
        (write [7, 9]).runLocal twoRegionHost (UbAddr.new 1 1 0 4 0) := by
  have hsame : (write [7, 9]).SameTarget twoRegionHost.mrTable 1 (UbAddr.new 1 1 0 4 0) := by decide
  refine ⟨hsame, ?_⟩
  have hlookup : twoRegionHost.mrTable.lookup 1 =
      some ⟨1, 0, 0, 8, .write, UbAddr.new 1 1 0 0 0, UbAddr.offset_origin⟩ := rfl
  have hinside : Holds ⟨1, 0, 0, 8, .write, UbAddr.new 1 1 0 0 0, UbAddr.offset_origin⟩
      (UbAddr.new 1 1 0 4 0) := ⟨rfl, rfl, Nat.zero_le _, by decide⟩
  exact (local_and_remote_agree_iff twoRegionHost.mrTable twoRegionHost.jettyTable 1 2 1 _ hlookup
    (UbAddr.new 1 1 0 4 0) hinside 0 _).mpr hsame twoRegionHost.memory

/-- The first of the two regions is being revoked, with an operation in flight. -/
def revokingTable : MrTable :=
  { twoRegionHost.mrTable with
    cells := Function.update twoRegionHost.mrTable.cells 1 ⟨.revoking, 1⟩ }

/-- The local verb still writes to a region that is being revoked; the frame with
its handle is refused. -/
theorem revoking_region_written_locally_only :
    let host : Host := { twoRegionHost with mrTable := revokingTable }
    ((write [7, 9]).runLocal host (UbAddr.new 1 1 0 4 0)).2 = some .done ∧
      ((write [7, 9]).runRemote host 1 2 1 (UbAddr.new 1 1 0 4 0) 0).2 = none ∧
      ¬(write [7, 9]).SameTarget revokingTable 1 (UbAddr.new 1 1 0 4 0) := by
  decide +kernel

end VerbOp
end UniBus.DataPlane
