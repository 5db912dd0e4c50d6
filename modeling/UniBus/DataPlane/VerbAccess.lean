import UniBus.DataPlane.Agreement

/-!
# What a verb touches

The device operation behind a frame, with the bytes it touches and the host it
leaves behind.
-/
namespace UniBus.DataPlane.VerbOp

open Wire

def kind : VerbOp → AccessKind
  | write _ => .write
  | read _ => .read
  | atomicCas .. => .atomicCas
  | atomicFaa _ => .atomicFaa

/-- The bytes of a device that the operation touches. -/
def accessAt (op : VerbOp) (r : DeviceRef) (offset : UInt64) : Access :=
  ⟨r, op.kind, offset.toNat, op.count⟩

/-- The operation on a device, with the error of the device. -/
def tryDevice (d : Device) (offset : UInt64) : VerbOp → Except UbError (Device × VerbValue)
  | write buf => (d.write offset buf).map fun d => (d, .done)
  | read len => (d.read offset len.toNat).map fun data => (d, .bytes data)
  | atomicCas expect new =>
    (d.atomicCas offset expect new).map fun (old, d) => (d, .word old)
  | atomicFaa add => (d.atomicFaa offset add).map fun (old, d) => (d, .word old)

theorem toOption_tryDevice (op : VerbOp) (d : Device) (offset : UInt64) :
    (op.tryDevice d offset).toOption = op.onDevice d offset := by
  cases op with
  | write buf =>
    simp only [tryDevice, onDevice]
    cases d.write offset buf <;> rfl
  | read len =>
    simp only [tryDevice, onDevice]
    cases d.read offset len.toNat <;> rfl
  | atomicCas expect new =>
    simp only [tryDevice, onDevice]
    cases d.atomicCas offset expect new <;> rfl
  | atomicFaa add =>
    simp only [tryDevice, onDevice]
    cases d.atomicFaa offset add <;> rfl

theorem capacity_onDevice {op : VerbOp} {d d' : Device} {offset : UInt64} {value : VerbValue}
    (h : op.onDevice d offset = some (d', value)) : d'.capacity = d.capacity := by
  have hsome : (op.onDevice d offset).isSome = true := by rw [h]; rfl
  obtain ⟨halign, hfit⟩ := (onDevice_isSome_iff op d offset).mp hsome
  have hword : ∀ w, offset.toNat + 8 ≤ d.capacity → (d.setWord offset w).capacity = d.capacity :=
    fun w hfit => Bytes.length_splice (by rw [Bytes.length_putLe]; exact hfit)
  cases op with
  | write buf =>
    have hfit : offset.toNat + buf.length ≤ d.capacity := hfit
    rw [onDevice, Device.write_eq, if_pos hfit] at h
    cases h
    exact Bytes.length_splice hfit
  | read len =>
    obtain ⟨data, -, hpair⟩ := Option.map_eq_some_iff.mp h
    cases hpair
    rfl
  | atomicCas expect new =>
    have hnot : ¬ offset % 8 ≠ 0 := not_not.mpr (halign trivial)
    have hfit : offset.toNat + 8 ≤ d.capacity := hfit
    rw [onDevice, Device.atomicCas_eq, if_neg hnot, if_pos hfit] at h
    cases h
    split_ifs
    · exact hword new hfit
    · rfl
  | atomicFaa add =>
    have hnot : ¬ offset % 8 ≠ 0 := not_not.mpr (halign trivial)
    have hfit : offset.toNat + 8 ≤ d.capacity := hfit
    rw [onDevice, Device.atomicFaa_eq, if_neg hnot, if_pos hfit] at h
    cases h
    exact hword _ hfit

/-- What the handler of the verb does to the host, and the bytes it touches. -/
def handle (h : Host) (ext : DataExtHeader) (payload : List UInt8) : VerbOp → Host × Option Access
  | write _ =>
    let handled := handleWrite h payload ext
    (handled.host, handled.access)
  | read _ =>
    let handled := handleReadReq h payload ext
    (handled.host, handled.access)
  | atomicCas .. =>
    let handled := handleAtomicCas h payload ext
    (handled.host, handled.access)
  | atomicFaa _ =>
    let handled := handleAtomicFaa h payload ext
    (handled.host, handled.access)

/-- The frame of the requester at the owner of the region. -/
def deliver (h : Host) (owner requester : UInt16) (mrHandle : UInt32) (addr : UbAddr)
    (opaqueId : UInt64) (op : VerbOp) : Host × Option Access :=
  match (op.request requester owner mrHandle addr opaqueId).bind openFrame with
  | none => (h, none)
  | some (ext, payload) => op.handle h ext payload

/-- The effect of the operation on the device it goes to, if it goes to one. -/
def effect (h : Host) (target : Option DeviceRef) (offset : UInt64) (op : VerbOp) :
    Host × Option Access :=
  match target with
  | none => (h, none)
  | some r =>
    match op.onDevice (h.memory r) offset with
    | none => (h, none)
    | some (d, _) =>
      ({ h with memory := Function.update h.memory r d }, some (op.accessAt r offset))

theorem effect_misaligned {op : VerbOp} {offset : UInt64} (hatomic : op.IsAtomic)
    (hmis : offset % 8 ≠ 0) (h : Host) (target : Option DeviceRef) :
    op.effect h target offset = (h, none) := by
  cases target with
  | none => rfl
  | some r => rw [effect, onDevice_misaligned hatomic hmis]

section
variable {h : Host} {mrHandle : UInt32} {e : MrEntry} {addr : UbAddr} (opaqueId : UInt64)

theorem handle_refused (op : VerbOp) {refusal : Refusal}
    (hacq : acquire h.mrTable mrHandle op.verb = .error refusal) :
    op.handle h (plainExt op.verb ExtFlags.empty mrHandle addr opaqueId) op.payload =
      (h, none) := by
  cases op with
  | write buf =>
    have hacq : acquire h.mrTable mrHandle .write = .error refusal := hacq
    simp [handle, handleWrite, plainExt, hacq]
  | read len =>
    have hacq : acquire h.mrTable mrHandle .readReq = .error refusal := hacq
    simp [handle, handleReadReq, plainExt, hacq]
  | atomicCas expect new =>
    have hacq : acquire h.mrTable mrHandle .atomicCas = .error refusal := hacq
    simp [handle, handleAtomicCas, handleAtomic, plainExt, hacq]
  | atomicFaa add =>
    have hacq : acquire h.mrTable mrHandle .atomicFaa = .error refusal := hacq
    simp [handle, handleAtomicFaa, handleAtomic, plainExt, hacq]

/-- The in-flight reference is given back, so only the memory changes. -/
theorem handle_admitted (op : VerbOp)
    (hacq : acquire h.mrTable mrHandle op.verb = .ok (e, h.mrTable.inflightAdd e.handle 1))
    (hle : e.baseOffset ≤ addr.offset) :
    op.handle h (plainExt op.verb ExtFlags.empty mrHandle addr opaqueId) op.payload =
      if op.IsAtomic ∧ offsetInMr e addr % 8 ≠ 0 then (h, none)
      else op.effect h (some e.device) addr.offset := by
  cases op with
  | write buf =>
    have hacq : acquire h.mrTable mrHandle .write =
      .ok (e, h.mrTable.inflightAdd e.handle 1) := hacq
    rw [if_neg (fun hatomic => hatomic.1)]
    simp only [handle, handleWrite, plainExt, verb, payload, hacq, deviceOffset_eq hle,
      Memory.write, effect, onDevice, MrTable.inflightDec_inflightAdd]
    cases (h.memory e.device).write addr.offset buf <;> rfl
  | read len =>
    have hacq : acquire h.mrTable mrHandle .readReq =
      .ok (e, h.mrTable.inflightAdd e.handle 1) := hacq
    rw [if_neg (fun hatomic => hatomic.1)]
    simp only [handle, handleReadReq, plainExt, verb, payload, hacq, deviceOffset_eq hle,
      readLen_put, Memory.read, effect, onDevice, MrTable.inflightDec_inflightAdd]
    cases (h.memory e.device).read addr.offset len.toNat with
    | error err => rfl
    | ok data => simp [Except.map, Except.toOption, accessAt, kind, count]
  | atomicCas expect new =>
    have hacq : acquire h.mrTable mrHandle .atomicCas =
      .ok (e, h.mrTable.inflightAdd e.handle 1) := hacq
    have hlong : ¬(BigEndian.put 8 expect.toNat ++ BigEndian.put 8 new.toNat).length < 16 := by simp
    simp only [handle, handleAtomicCas, handleAtomic, plainExt, verb, payload, hacq, if_neg hlong,
      deviceOffset_eq hle, operand_zero, operand_one, MrTable.inflightDec_inflightAdd]
    by_cases halign : offsetInMr e addr % 8 = 0
    · rw [if_neg (not_not.mpr halign), if_neg (fun hatomic => hatomic.2 halign)]
      simp only [Memory.atomicCas, effect, onDevice]
      cases (h.memory e.device).atomicCas addr.offset expect new <;> rfl
    · rw [if_pos halign, if_pos ⟨trivial, halign⟩]
  | atomicFaa add =>
    have hacq : acquire h.mrTable mrHandle .atomicFaa =
      .ok (e, h.mrTable.inflightAdd e.handle 1) := hacq
    have hlong : ¬(BigEndian.put 8 add.toNat).length < 8 := by simp
    have hoperand := operand_zero add []
    rw [List.append_nil] at hoperand
    simp only [handle, handleAtomicFaa, handleAtomic, plainExt, verb, payload, hacq, if_neg hlong,
      deviceOffset_eq hle, hoperand, MrTable.inflightDec_inflightAdd]
    by_cases halign : offsetInMr e addr % 8 = 0
    · rw [if_neg (not_not.mpr halign), if_neg (fun hatomic => hatomic.2 halign)]
      simp only [Memory.atomicFaa, effect, onDevice]
      cases (h.memory e.device).atomicFaa addr.offset add <;> rfl
    · rw [if_pos halign, if_pos ⟨trivial, halign⟩]

variable (owner requester : UInt16)

theorem deliver_of_fits {op : VerbOp} (hfits : op.Fits) :
    op.deliver h owner requester mrHandle addr opaqueId =
      op.handle h (plainExt op.verb ExtFlags.empty mrHandle addr
        (if op.verb = .write then 0 else opaqueId)) op.payload := by
  have hopen := openFrame_build requester owner op.verb mrHandle addr
    (if op.verb = .write then 0 else opaqueId) op.payload ExtFlags.empty (by decide) (by decide)
  rw [deliver, request, if_pos hfits, Option.bind_some, buildDataFrame, hopen]

theorem deliver_eq (hlookup : h.mrTable.lookup mrHandle = some e)
    (hle : e.baseOffset ≤ addr.offset) (op : VerbOp) :
    op.deliver h owner requester mrHandle addr opaqueId =
      op.effect h (remoteTarget h.mrTable mrHandle addr op) addr.offset := by
  cases fate hlookup hle op with
  | tooLong hfits htarget =>
    rw [deliver, request, if_neg hfits, htarget]
    rfl
  | refused hfits refusal hacq htarget =>
    rw [deliver_of_fits _ _ _ hfits, handle_refused _ op hacq, htarget]
    rfl
  | misaligned hfits hacq hatomic hmis htarget =>
    rw [deliver_of_fits _ _ _ hfits, handle_admitted _ op hacq hle, htarget]
    rcases hmis with hmis | hmis
    · exact if_pos ⟨hatomic, hmis⟩
    · rw [effect_misaligned hatomic hmis, ite_self]
      rfl
  | admitted hfits hacq halign htarget =>
    rw [deliver_of_fits _ _ _ hfits, handle_admitted _ op hacq hle, if_neg halign, htarget]

end

end UniBus.DataPlane.VerbOp
