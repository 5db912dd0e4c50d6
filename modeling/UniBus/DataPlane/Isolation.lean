import UniBus.DataPlane.Handlers

/-!
# Isolation of memory regions

The five region verbs of inbound frames and the four local verbs, seen as
requests for a byte range of one region. Each request either attempts one
device operation or is refused by a check; the isolation property says what the
attempt may touch, and the main result says exactly which requests have it.
-/
namespace UniBus.DataPlane

open Wire

inductive DeviceOp
  | read (len : ℕ)
  | write (buf : List UInt8)
  | atomicCas (expect new : UInt64)
  | atomicFaa (add : UInt64)
  deriving DecidableEq, Repr

namespace DeviceOp

def count : DeviceOp → ℕ
  | read len => len
  | write buf => buf.length
  | atomicCas .. => 8
  | atomicFaa .. => 8

def kind : DeviceOp → AccessKind
  | read .. => .read
  | write .. => .write
  | atomicCas .. => .atomicCas
  | atomicFaa .. => .atomicFaa

/-- The alignment that the device itself insists on. -/
def Aligned (offset : UInt64) : DeviceOp → Prop
  | read .. => True
  | write .. => True
  | atomicCas .. => offset % 8 = 0
  | atomicFaa .. => offset % 8 = 0

/-- The new device and the value found: the bytes read, or the old word. -/
def apply (d : Device) (offset : UInt64) : DeviceOp → Except UbError (Device × List UInt8)
  | read len => (d.read offset len).map fun bytes => (d, bytes)
  | write buf => (d.write offset buf).map fun d => (d, [])
  | atomicCas expect new =>
    (d.atomicCas offset expect new).map fun (old, d) => (d, atomicReply old)
  | atomicFaa add => (d.atomicFaa offset add).map fun (old, d) => (d, atomicReply old)

variable {op : DeviceOp} {d d' : Device} {offset : UInt64} {value : List UInt8}

theorem apply_isOk_iff :
    (∃ r, op.apply d offset = .ok r) ↔
      op.Aligned offset ∧ offset.toNat + op.count ≤ d.capacity := by
  cases op with
  | read len =>
    simp only [apply, Device.read_eq, Aligned, count, true_and]
    split_ifs with hfit <;> simp [Except.map, hfit]
  | write buf =>
    simp only [apply, Device.write_eq, Aligned, count, true_and]
    split_ifs with hfit <;> simp [Except.map, hfit]
  | atomicCas expect new =>
    simp only [apply, Device.atomicCas_eq, Aligned, count]
    by_cases halign : offset % 8 = 0
    · by_cases hfit : offset.toNat + 8 ≤ d.capacity <;> simp [Except.map, halign, hfit]
    · simp [Except.map, halign]
  | atomicFaa add =>
    simp only [apply, Device.atomicFaa_eq, Aligned, count]
    by_cases halign : offset % 8 = 0
    · by_cases hfit : offset.toNat + 8 ≤ d.capacity <;> simp [Except.map, halign, hfit]
    · simp [Except.map, halign]

theorem setWord_outside {d : Device} (hfit : offset.toNat + 8 ≤ d.capacity) (v : UInt64) {i : ℕ}
    (hi : i ∉ Set.Ico offset.toNat (offset.toNat + 8)) :
    (d.setWord offset v).data[i]? = d.data[i]? := by
  have hlen : offset.toNat + (Bytes.putLe 8 v.toNat).length ≤ d.data.length := by
    rw [Bytes.length_putLe]
    exact hfit
  apply Bytes.getElem?_splice_outside hlen
  rw [Set.mem_Ico] at hi
  rw [Bytes.length_putLe]
  omega

theorem apply_outside (h : op.apply d offset = .ok (d', value)) {i : ℕ}
    (hi : i ∉ Set.Ico offset.toNat (offset.toNat + op.count)) : d'.data[i]? = d.data[i]? := by
  obtain ⟨halign, hfit⟩ := apply_isOk_iff.mp ⟨_, h⟩
  cases op with
  | read len =>
    have hfit : offset.toNat + len ≤ d.capacity := hfit
    rw [apply, Device.read_eq, if_pos hfit] at h
    cases h
    rfl
  | write buf =>
    have hfit : offset.toNat + buf.length ≤ d.capacity := hfit
    rw [apply, Device.write_eq, if_pos hfit] at h
    cases h
    apply Bytes.getElem?_splice_outside hfit
    simp only [count, Set.mem_Ico] at hi
    omega
  | atomicCas expect new =>
    have halign : ¬ offset % 8 ≠ 0 := not_not.mpr halign
    have hfit : offset.toNat + 8 ≤ d.capacity := hfit
    rw [apply, Device.atomicCas_eq, if_neg halign, if_pos hfit] at h
    cases h
    split_ifs
    · exact setWord_outside hfit new hi
    · rfl
  | atomicFaa add =>
    have halign : ¬ offset % 8 ≠ 0 := not_not.mpr halign
    have hfit : offset.toNat + 8 ≤ d.capacity := hfit
    rw [apply, Device.atomicFaa_eq, if_neg halign, if_pos hfit] at h
    cases h
    exact setWord_outside hfit _ hi

theorem word_congr {d₁ d₂ : Device}
    (h : ∀ i ∈ Set.Ico offset.toNat (offset.toNat + 8), d₁.data[i]? = d₂.data[i]?) :
    d₁.word offset = d₂.word offset := by
  have hslice : Bytes.slice d₁.data offset.toNat 8 = Bytes.slice d₂.data offset.toNat 8 :=
    Bytes.slice_congr fun i hle hlt => h i ⟨hle, hlt⟩
  rw [Device.word, Device.word, hslice]

theorem apply_value_congr {d₁ d₂ : Device} (hcap : d₁.capacity = d₂.capacity)
    (h : ∀ i ∈ Set.Ico offset.toNat (offset.toNat + op.count), d₁.data[i]? = d₂.data[i]?) :
    (op.apply d₁ offset).map Prod.snd = (op.apply d₂ offset).map Prod.snd := by
  cases op with
  | read len =>
    simp only [apply, Device.read_eq, hcap]
    split_ifs
    · have hslice : Bytes.slice d₁.data offset.toNat len = Bytes.slice d₂.data offset.toNat len :=
        Bytes.slice_congr fun i hle hlt => h i ⟨hle, hlt⟩
      simp [Except.map, hslice]
    · rfl
  | write buf =>
    simp only [apply, Device.write_eq, hcap]
    split_ifs <;> rfl
  | atomicCas expect new =>
    simp only [apply, Device.atomicCas_eq, hcap]
    split_ifs <;> simp [Except.map, word_congr h]
  | atomicFaa add =>
    simp only [apply, Device.atomicFaa_eq, hcap]
    split_ifs <;> simp [Except.map, word_congr h]

theorem apply_error_congr {d₁ d₂ : Device} (hcap : d₁.capacity = d₂.capacity) {err : UbError}
    (h : op.apply d₁ offset = .error err) : op.apply d₂ offset = .error err := by
  cases op with
  | read len =>
    rw [apply, Device.read_eq] at h ⊢
    rw [hcap] at h
    split_ifs at h ⊢ <;> cases h
    rfl
  | write buf =>
    rw [apply, Device.write_eq] at h ⊢
    rw [hcap] at h
    split_ifs at h ⊢ <;> cases h
    rfl
  | atomicCas expect new =>
    simp only [apply, Device.atomicCas_eq, hcap] at h ⊢
    split_ifs at h ⊢ <;> cases h <;> rfl
  | atomicFaa add =>
    simp only [apply, Device.atomicFaa_eq, hcap] at h ⊢
    split_ifs at h ⊢ <;> cases h <;> rfl

end DeviceOp

/-- An inbound region verb, or a call of a local verb. -/
inductive Request
  | write (ext : DataExtHeader) (payload : List UInt8)
  | writeImm (ext : DataExtHeader) (payload : List UInt8)
  | readReq (ext : DataExtHeader) (payload : List UInt8)
  | atomicCas (ext : DataExtHeader) (payload : List UInt8)
  | atomicFaa (ext : DataExtHeader) (payload : List UInt8)
  | ubReadSync (addr : UbAddr) (len : ℕ)
  | ubWriteSync (addr : UbAddr) (buf : List UInt8)
  | ubAtomicCasSync (addr : UbAddr) (expect new : UInt64)
  | ubAtomicFaaSync (addr : UbAddr) (add : UInt64)

/-- What the issuer of a request gets to see. -/
inductive Reply
  | warned (warning : Option String)
  | response (r : Except UbStatus (List UInt8))
  | returned (r : Except UbError (List UInt8))

def Reply.Failed : Reply → Prop
  | warned w => w.isSome
  | response r => ∃ status, r = .error status
  | returned r => ∃ e, r = .error e

structure Outcome where
  memory : Memory
  access : Option Access
  reply : Reply

namespace Request

def addr : Request → UbAddr
  | write ext _ | writeImm ext _ | readReq ext _ | atomicCas ext _ | atomicFaa ext _ => ext.ubAddr
  | ubReadSync addr _ | ubWriteSync addr _ | ubAtomicCasSync addr .. | ubAtomicFaaSync addr _ =>
    addr

def count : Request → ℕ
  | write _ payload | writeImm _ payload => payload.length
  | readReq _ payload => readLen payload
  | ubReadSync _ len => len
  | ubWriteSync _ buf => buf.length
  | atomicCas .. | atomicFaa .. | ubAtomicCasSync .. | ubAtomicFaaSync .. => 8

def range (r : Request) : Set ℕ := Set.Ico r.addr.offset.toNat (r.addr.offset.toNat + r.count)

/-- The region the request names, or its address resolves to. -/
def target (h : Host) : Request → Option MrEntry
  | write ext _ | writeImm ext _ | readReq ext _ | atomicCas ext _ | atomicFaa ext _ =>
    h.mrTable.lookup ext.mrHandle
  | ubReadSync addr _ | ubWriteSync addr _ | ubAtomicCasSync addr .. | ubAtomicFaaSync addr _ =>
    (h.mrTable.lookupByAddr addr).map Prod.fst

def ofHandled {α : Type} (reply : α → Reply) (r : Handled α) : Outcome :=
  ⟨r.host.memory, r.access, reply r.result⟩

/-- The outcome of a local verb that returns a word. -/
def ofAtomic (m : Memory) : Except UbError (UInt64 × Memory × Access) → Outcome
  | .ok (old, m, access) => ⟨m, some access, .returned (.ok (atomicReply old))⟩
  | .error e => ⟨m, none, .returned (.error e)⟩

def perform (h : Host) : Request → Outcome
  | write ext payload => ofHandled .warned (handleWrite h payload ext)
  | writeImm ext payload => ofHandled .warned (handleWriteImm h payload ext)
  | readReq ext payload => ofHandled .response (handleReadReq h payload ext)
  | atomicCas ext payload => ofHandled .response (handleAtomicCas h payload ext)
  | atomicFaa ext payload => ofHandled .response (handleAtomicFaa h payload ext)
  | ubReadSync addr len =>
    match UniBus.ubReadSync h.mrTable h.memory addr len with
    | .ok (bytes, access) => ⟨h.memory, some access, .returned (.ok bytes)⟩
    | .error e => ⟨h.memory, none, .returned (.error e)⟩
  | ubWriteSync addr buf =>
    match UniBus.ubWriteSync h.mrTable h.memory addr buf with
    | .ok (memory, access) => ⟨memory, some access, .returned (.ok [])⟩
    | .error e => ⟨h.memory, none, .returned (.error e)⟩
  | ubAtomicCasSync addr expect new =>
    ofAtomic h.memory (UniBus.ubAtomicCasSync h.mrTable h.memory addr expect new)
  | ubAtomicFaaSync addr add =>
    ofAtomic h.memory (UniBus.ubAtomicFaaSync h.mrTable h.memory addr add)

/-- The region a frame gets to after the checks of its handler. -/
def admitted (h : Host) (ext : DataExtHeader) (verb : Verb) : Option MrEntry :=
  match acquire h.mrTable ext.mrHandle verb with
  | .ok (entry, _) => some entry
  | .error _ => none

def admittedLocal (h : Host) (addr : UbAddr) (verb : Verb) : Option MrEntry :=
  match resolveLocal h.mrTable addr verb with
  | .ok (entry, _) => some entry
  | .error _ => none

/-- The region and the device operation that a request attempts once it passed
the checks on the region, the permission, the alignment and the operands. -/
def attempt (h : Host) : Request → Option (MrEntry × DeviceOp)
  | write ext payload => (admitted h ext .write).map fun e => (e, .write payload)
  | writeImm ext payload => (admitted h ext .writeImm).map fun e => (e, .write payload)
  | readReq ext payload => (admitted h ext .readReq).map fun e => (e, .read (readLen payload))
  | atomicCas ext payload =>
    (admitted h ext .atomicCas).bind fun e =>
      if offsetInMr e ext.ubAddr % 8 = 0 ∧ 16 ≤ payload.length then
        some (e, .atomicCas (operand payload 0) (operand payload 1))
      else none
  | atomicFaa ext payload =>
    (admitted h ext .atomicFaa).bind fun e =>
      if offsetInMr e ext.ubAddr % 8 = 0 ∧ 8 ≤ payload.length then
        some (e, .atomicFaa (operand payload 0))
      else none
  | ubReadSync addr len => (admittedLocal h addr .readReq).map fun e => (e, .read len)
  | ubWriteSync addr buf => (admittedLocal h addr .write).map fun e => (e, .write buf)
  | ubAtomicCasSync addr expect new =>
    if addr.offset % 8 = 0 then
      (admittedLocal h addr .atomicCas).map fun e => (e, .atomicCas expect new)
    else none
  | ubAtomicFaaSync addr add =>
    if addr.offset % 8 = 0 then
      (admittedLocal h addr .atomicFaa).map fun e => (e, .atomicFaa add)
    else none

variable {h : Host} {e : MrEntry} {ext : DataExtHeader} {verb : Verb} {addr : UbAddr}

theorem admitted_eq_some (ha : admitted h ext verb = some e) :
    h.mrTable.lookup ext.mrHandle = some e ∧
      ∃ t, acquire h.mrTable ext.mrHandle verb = .ok (e, t) := by
  unfold admitted at ha
  split at ha
  · rename_i entry t hacq
    cases ha
    refine ⟨?_, t, hacq⟩
    unfold acquire at hacq
    split at hacq
    · cases hacq
    · rename_i entry' hlookup
      split at hacq
      · cases hacq
      · split at hacq
        · cases hacq
        · cases hacq
          exact hlookup
  · cases ha

theorem admitted_eq_none (ha : admitted h ext verb = none) :
    ∃ r, acquire h.mrTable ext.mrHandle verb = .error r := by
  unfold admitted at ha
  split at ha
  · cases ha
  · rename_i r hacq
    exact ⟨r, hacq⟩

/-- A region found by address is not above the address, so nothing is clamped. -/
theorem admittedLocal_eq_some (ha : admittedLocal h addr verb = some e) :
    (h.mrTable.lookupByAddr addr).map Prod.fst = some e ∧
      resolveLocal h.mrTable addr verb = .ok (e, deviceOffset e addr) ∧
      e.baseOffset ≤ addr.offset := by
  unfold admittedLocal at ha
  split at ha
  · rename_i entry offset hres
    cases ha
    have hres' := hres
    unfold resolveLocal at hres'
    split at hres'
    · cases hres'
    · rename_i entry' offset' hlookup
      split at hres'
      · cases hres'
      · cases hres'
        have hfound := hlookup
        rw [MrTable.lookupByAddr, Option.map_eq_some_iff] at hfound
        obtain ⟨kv, hfind, hpair⟩ := hfound
        cases hpair
        have hin := List.find?_some hfind
        simp only [MrTable.addrInRegion, Bool.and_eq_true, decide_eq_true_eq] at hin
        have hoff : offsetInMr kv.2 addr = addr.offset - kv.2.baseUbAddr.offset :=
          if_pos hin.1.2
        refine ⟨by rw [hlookup]; rfl, ?_, ?_⟩
        · rw [hres, deviceOffset, hoff]
        · rw [← kv.2.offset_baseUbAddr]
          exact hin.1.2
  · cases ha

theorem admittedLocal_eq_none (ha : admittedLocal h addr verb = none) :
    ∃ err, resolveLocal h.mrTable addr verb = .error err := by
  unfold admittedLocal at ha
  split at ha
  · cases ha
  · rename_i err hres
    exact ⟨err, hres⟩

/-- The outcome of an attempted device operation. -/
def attempted (m : Memory) (e : MrEntry) (offset : UInt64) (op : DeviceOp)
    (reply : Except UbError (List UInt8) → Reply) : Outcome :=
  match op.apply (m e.device) offset with
  | .error err => ⟨m, none, reply (.error err)⟩
  | .ok (d, value) =>
    ⟨Function.update m e.device d, some ⟨e.device, op.kind, offset.toNat, op.count⟩,
      reply (.ok value)⟩

theorem attempted_reply (m : Memory) (offset : UInt64) (op : DeviceOp)
    (reply : Except UbError (List UInt8) → Reply) :
    (attempted m e offset op reply).reply =
      reply ((op.apply (m e.device) offset).map Prod.snd) := by
  unfold attempted
  split
  · rename_i err herr
    rw [herr]
    rfl
  · rename_i d value hok
    rw [hok]
    rfl

theorem handleAtomic_refused {operandBytes : ℕ} {op : DeviceOp} {payload : List UInt8}
    (act : Memory → DeviceRef → UInt64 → Except UbError (UInt64 × Memory × Access))
    (ha : ((admitted h ext verb).bind fun e =>
      if offsetInMr e ext.ubAddr % 8 = 0 ∧ operandBytes ≤ payload.length then some (e, op)
      else none) = none) :
    ∃ status, ∀ m, ofHandled .response
      (handleAtomic { h with memory := m } verb operandBytes act payload ext) =
        ⟨m, none, .response (.error status)⟩ := by
  cases hadm : admitted h ext verb with
  | none =>
    obtain ⟨refusal, hacq⟩ := admitted_eq_none hadm
    exact ⟨refusalStatus refusal, fun m => by simp [ofHandled, handleAtomic, hacq]⟩
  | some e =>
    obtain ⟨-, t, hacq⟩ := admitted_eq_some hadm
    rw [hadm, Option.bind_some] at ha
    split_ifs at ha with hchecks
    by_cases halign : offsetInMr e ext.ubAddr % 8 = 0
    · have hshort : payload.length < operandBytes := by
        by_contra hlong
        exact hchecks ⟨halign, Nat.not_lt.mp hlong⟩
      exact ⟨9, fun m => by simp [ofHandled, handleAtomic, hacq, halign, hshort]⟩
    · exact ⟨3, fun m => by simp [ofHandled, handleAtomic, hacq, halign]⟩

theorem perform_of_attempt_eq_none {r : Request} (ha : r.attempt h = none) :
    ∃ reply : Reply, reply.Failed ∧
      ∀ m, r.perform { h with memory := m } = ⟨m, none, reply⟩ := by
  cases r with
  | write ext payload =>
    obtain ⟨refusal, hacq⟩ := admitted_eq_none (Option.map_eq_none_iff.mp ha)
    refine ⟨.warned (some (refusalWarning "WRITE" ext.mrHandle refusal)), rfl, fun m => ?_⟩
    simp [perform, ofHandled, handleWrite, hacq]
  | writeImm ext payload =>
    obtain ⟨refusal, hacq⟩ := admitted_eq_none (Option.map_eq_none_iff.mp ha)
    refine ⟨.warned (some (refusalWarning "WRITE_IMM" ext.mrHandle refusal)), rfl, fun m => ?_⟩
    simp [perform, ofHandled, handleWriteImm, hacq]
  | readReq ext payload =>
    obtain ⟨refusal, hacq⟩ := admitted_eq_none (Option.map_eq_none_iff.mp ha)
    refine ⟨.response (.error (refusalStatus refusal)), ⟨_, rfl⟩, fun m => ?_⟩
    simp [perform, ofHandled, handleReadReq, hacq]
  | atomicCas ext payload =>
    obtain ⟨status, hstatus⟩ := handleAtomic_refused
      (fun m r offset => m.atomicCas r offset (operand payload 0) (operand payload 1)) ha
    exact ⟨.response (.error status), ⟨_, rfl⟩, hstatus⟩
  | atomicFaa ext payload =>
    obtain ⟨status, hstatus⟩ := handleAtomic_refused
      (fun m r offset => m.atomicFaa r offset (operand payload 0)) ha
    exact ⟨.response (.error status), ⟨_, rfl⟩, hstatus⟩
  | ubReadSync addr len =>
    obtain ⟨err, hres⟩ := admittedLocal_eq_none (Option.map_eq_none_iff.mp ha)
    refine ⟨.returned (.error err), ⟨_, rfl⟩, fun m => ?_⟩
    simp [perform, UniBus.ubReadSync, hres]
  | ubWriteSync addr buf =>
    obtain ⟨err, hres⟩ := admittedLocal_eq_none (Option.map_eq_none_iff.mp ha)
    refine ⟨.returned (.error err), ⟨_, rfl⟩, fun m => ?_⟩
    simp [perform, UniBus.ubWriteSync, hres]
  | ubAtomicCasSync addr expect new =>
    by_cases halign : addr.offset % 8 = 0
    · rw [attempt, if_pos halign] at ha
      obtain ⟨err, hres⟩ := admittedLocal_eq_none (Option.map_eq_none_iff.mp ha)
      refine ⟨.returned (.error err), ⟨_, rfl⟩, fun m => ?_⟩
      simp [perform, ofAtomic, UniBus.ubAtomicCasSync, halign, hres]
    · refine ⟨.returned (.error .alignment), ⟨_, rfl⟩, fun m => ?_⟩
      simp [perform, ofAtomic, UniBus.ubAtomicCasSync, halign]
  | ubAtomicFaaSync addr add =>
    by_cases halign : addr.offset % 8 = 0
    · rw [attempt, if_pos halign] at ha
      obtain ⟨err, hres⟩ := admittedLocal_eq_none (Option.map_eq_none_iff.mp ha)
      refine ⟨.returned (.error err), ⟨_, rfl⟩, fun m => ?_⟩
      simp [perform, ofAtomic, UniBus.ubAtomicFaaSync, halign, hres]
    · refine ⟨.returned (.error .alignment), ⟨_, rfl⟩, fun m => ?_⟩
      simp [perform, ofAtomic, UniBus.ubAtomicFaaSync, halign]

/-- The reply of an atomic or read handler: device errors become a status. -/
def responding (status : UbStatus) : Except UbError (List UInt8) → Reply
  | .error _ => .response (.error status)
  | .ok value => .response (.ok value)

/-- The reply of a write handler: a warning for a device error, else its own. -/
def warning (label : String) (ok : Option String) : Except UbError (List UInt8) → Reply
  | .error err => .warned (some (label ++ ": device write error: " ++ err.display))
  | .ok _ => .warned ok

section Attempted
variable (m : Memory) (offset : UInt64) (reply : Except UbError (List UInt8) → Reply)

theorem attempted_read (len : ℕ) :
    attempted m e offset (.read len) reply =
      match m.read e.device offset len with
      | .error err => ⟨m, none, reply (.error err)⟩
      | .ok (bytes, access) => ⟨m, some access, reply (.ok bytes)⟩ := by
  cases hread : (m e.device).read offset len <;>
    simp [attempted, DeviceOp.apply, Memory.read, hread, Except.map, DeviceOp.kind, DeviceOp.count]

theorem attempted_write (buf : List UInt8) :
    attempted m e offset (.write buf) reply =
      match m.write e.device offset buf with
      | .error err => ⟨m, none, reply (.error err)⟩
      | .ok (memory, access) => ⟨memory, some access, reply (.ok [])⟩ := by
  cases hwrite : (m e.device).write offset buf <;>
    simp [attempted, DeviceOp.apply, Memory.write, hwrite, Except.map, DeviceOp.kind,
      DeviceOp.count]

def ofWord (m : Memory) (reply : Except UbError (List UInt8) → Reply) :
    Except UbError (UInt64 × Memory × Access) → Outcome
  | .error err => ⟨m, none, reply (.error err)⟩
  | .ok (old, memory, access) => ⟨memory, some access, reply (.ok (atomicReply old))⟩

theorem attempted_atomicCas (expect new : UInt64) :
    attempted m e offset (.atomicCas expect new) reply =
      ofWord m reply (m.atomicCas e.device offset expect new) := by
  cases hcas : (m e.device).atomicCas offset expect new <;>
    simp [attempted, DeviceOp.apply, Memory.atomicCas, hcas, Except.map, DeviceOp.kind,
      DeviceOp.count, ofWord]

theorem attempted_atomicFaa (add : UInt64) :
    attempted m e offset (.atomicFaa add) reply =
      ofWord m reply (m.atomicFaa e.device offset add) := by
  cases hfaa : (m e.device).atomicFaa offset add <;>
    simp [attempted, DeviceOp.apply, Memory.atomicFaa, hfaa, Except.map, DeviceOp.kind,
      DeviceOp.count, ofWord]

theorem ofAtomic_eq (result : Except UbError (UInt64 × Memory × Access)) :
    ofAtomic m result = ofWord m .returned result := by
  cases result <;> rfl

theorem handleAtomic_admitted {operandBytes : ℕ} {op op' : DeviceOp} {payload : List UInt8}
    (act : Memory → DeviceRef → UInt64 → Except UbError (UInt64 × Memory × Access))
    (ha : ((admitted h ext verb).bind fun e =>
      if offsetInMr e ext.ubAddr % 8 = 0 ∧ operandBytes ≤ payload.length then some (e, op)
      else none) = some (e, op')) :
    op = op' ∧ ∀ m, ofHandled .response
      (handleAtomic { h with memory := m } verb operandBytes act payload ext) =
        ofWord m (responding 9) (act m e.device (deviceOffset e ext.ubAddr)) := by
  obtain ⟨e', hadm, hchecks⟩ := Option.bind_eq_some_iff.mp ha
  split_ifs at hchecks with hok
  cases hchecks
  obtain ⟨-, t, hacq⟩ := admitted_eq_some hadm
  refine ⟨rfl, fun m => ?_⟩
  simp only [ofHandled, handleAtomic, hacq, hok.1, Nat.not_lt.mpr hok.2]
  cases act m e.device (deviceOffset e ext.ubAddr) <;> rfl

end Attempted

theorem admitted_of_map {op op' : DeviceOp}
    (ha : (admitted h ext verb).map (fun e => (e, op)) = some (e, op')) :
    op = op' ∧ ∃ t, acquire h.mrTable ext.mrHandle verb = .ok (e, t) := by
  obtain ⟨e', hadm, hpair⟩ := Option.map_eq_some_iff.mp ha
  cases hpair
  exact ⟨rfl, (admitted_eq_some hadm).2⟩

theorem admittedLocal_of_map {op op' : DeviceOp}
    (ha : (admittedLocal h addr verb).map (fun e => (e, op)) = some (e, op')) :
    op = op' ∧ resolveLocal h.mrTable addr verb = .ok (e, deviceOffset e addr) := by
  obtain ⟨e', hadm, hpair⟩ := Option.map_eq_some_iff.mp ha
  cases hpair
  exact ⟨rfl, (admittedLocal_eq_some hadm).2.1⟩

theorem perform_of_attempt_eq_some {r : Request} {op : DeviceOp}
    (ha : r.attempt h = some (e, op)) :
    ∃ reply : Except UbError (List UInt8) → Reply, (∀ err, (reply (.error err)).Failed) ∧
      ∀ m, r.perform { h with memory := m } =
        attempted m e (deviceOffset e r.addr) op reply := by
  cases r with
  | write ext payload =>
    obtain ⟨rfl, t, hacq⟩ := admitted_of_map ha
    refine ⟨warning "WRITE" none, fun err => rfl, fun m => ?_⟩
    rw [attempted_write]
    simp only [perform, ofHandled, handleWrite, hacq, addr]
    cases m.write e.device (deviceOffset e ext.ubAddr) payload <;> rfl
  | writeImm ext payload =>
    obtain ⟨rfl, t, hacq⟩ := admitted_of_map ha
    refine ⟨warning "WRITE_IMM" (notifyJetty h.jettyTable ext payload.length).2, fun err => rfl,
      fun m => ?_⟩
    rw [attempted_write]
    simp only [perform, ofHandled, handleWriteImm, hacq, addr]
    cases m.write e.device (deviceOffset e ext.ubAddr) payload <;> rfl
  | readReq ext payload =>
    obtain ⟨rfl, t, hacq⟩ := admitted_of_map ha
    refine ⟨responding 1, fun err => ⟨1, rfl⟩, fun m => ?_⟩
    rw [attempted_read]
    simp only [perform, ofHandled, handleReadReq, hacq, addr]
    cases m.read e.device (deviceOffset e ext.ubAddr) (readLen payload) <;> rfl
  | atomicCas ext payload =>
    obtain ⟨rfl, hperform⟩ := handleAtomic_admitted
      (fun m r offset => m.atomicCas r offset (operand payload 0) (operand payload 1)) ha
    refine ⟨responding 9, fun err => ⟨9, rfl⟩, fun m => ?_⟩
    rw [attempted_atomicCas]
    exact hperform m
  | atomicFaa ext payload =>
    obtain ⟨rfl, hperform⟩ := handleAtomic_admitted
      (fun m r offset => m.atomicFaa r offset (operand payload 0)) ha
    refine ⟨responding 9, fun err => ⟨9, rfl⟩, fun m => ?_⟩
    rw [attempted_atomicFaa]
    exact hperform m
  | ubReadSync addr len =>
    obtain ⟨rfl, hres⟩ := admittedLocal_of_map ha
    refine ⟨.returned, fun err => ⟨err, rfl⟩, fun m => ?_⟩
    rw [attempted_read]
    simp only [perform, UniBus.ubReadSync, hres, Request.addr]
    cases m.read e.device (deviceOffset e addr) len <;> rfl
  | ubWriteSync addr buf =>
    obtain ⟨rfl, hres⟩ := admittedLocal_of_map ha
    refine ⟨.returned, fun err => ⟨err, rfl⟩, fun m => ?_⟩
    rw [attempted_write]
    simp only [perform, UniBus.ubWriteSync, hres, Request.addr]
    cases m.write e.device (deviceOffset e addr) buf <;> rfl
  | ubAtomicCasSync addr expect new =>
    rw [attempt] at ha
    split_ifs at ha with halign
    obtain ⟨rfl, hres⟩ := admittedLocal_of_map ha
    refine ⟨.returned, fun err => ⟨err, rfl⟩, fun m => ?_⟩
    rw [attempted_atomicCas, perform, ofAtomic_eq, UniBus.ubAtomicCasSync,
      if_neg (not_not.mpr halign), hres]
    rfl
  | ubAtomicFaaSync addr add =>
    rw [attempt] at ha
    split_ifs at ha with halign
    obtain ⟨rfl, hres⟩ := admittedLocal_of_map ha
    refine ⟨.returned, fun err => ⟨err, rfl⟩, fun m => ?_⟩
    rw [attempted_atomicFaa, perform, ofAtomic_eq, UniBus.ubAtomicFaaSync,
      if_neg (not_not.mpr halign), hres]
    rfl

theorem attempt_target {r : Request} {op : DeviceOp} (ha : r.attempt h = some (e, op)) :
    r.target h = some e ∧ op.count = r.count := by
  cases r with
  | write ext payload | writeImm ext payload | readReq ext payload =>
    obtain ⟨e', hadm, hpair⟩ := Option.map_eq_some_iff.mp ha
    cases hpair
    exact ⟨(admitted_eq_some hadm).1, rfl⟩
  | atomicCas ext payload | atomicFaa ext payload =>
    obtain ⟨e', hadm, hchecks⟩ := Option.bind_eq_some_iff.mp ha
    split_ifs at hchecks
    cases hchecks
    exact ⟨(admitted_eq_some hadm).1, rfl⟩
  | ubReadSync addr len | ubWriteSync addr buf =>
    obtain ⟨e', hadm, hpair⟩ := Option.map_eq_some_iff.mp ha
    cases hpair
    exact ⟨(admittedLocal_eq_some hadm).1, rfl⟩
  | ubAtomicCasSync addr expect new | ubAtomicFaaSync addr add =>
    rw [attempt] at ha
    split_ifs at ha
    obtain ⟨e', hadm, hpair⟩ := Option.map_eq_some_iff.mp ha
    cases hpair
    exact ⟨(admittedLocal_eq_some hadm).1, rfl⟩

end Request

theorem toNat_deviceOffset (e : MrEntry) (addr : UbAddr) :
    (deviceOffset e addr).toNat = max e.baseOffset.toNat addr.offset.toNat := by
  unfold deviceOffset offsetInMr
  rw [e.offset_baseUbAddr]
  split_ifs with hge
  · have hle : e.baseOffset.toNat ≤ addr.offset.toNat := hge
    rw [max_eq_right hle]
    rw [UInt64.add_comm, UInt64.sub_add_cancel]
  · have hlt : addr.offset.toNat < e.baseOffset.toNat := Nat.lt_of_not_le hge
    rw [max_eq_left hlt.le]
    simp

/-! ## Isolation -/

/-- Two memories with the same bytes of one region and the same capacity of its
device. -/
structure AgreeOn (e : MrEntry) (m m' : Memory) : Prop where
  capacity : (m' e.device).capacity = (m e.device).capacity
  bytes : ∀ i ∈ e.range, (m' e.device).data[i]? = (m e.device).data[i]?

/-- An access that executes touches exactly the bytes named, all of the region;
otherwise nothing changes and the request fails. In particular no byte outside
the region is changed, and none influences the reply. -/
structure Isolated (h : Host) (r : Request) : Prop where
  executed : ∀ a, (r.perform h).access = some a →
    ∃ e, r.target h = some e ∧ a.device = e.device ∧ a.range = r.range ∧ r.range ⊆ e.range
  refused : (r.perform h).access = none →
    (r.perform h).memory = h.memory ∧ (r.perform h).reply.Failed
  unchanged : ∀ e, r.target h = some e → ∀ d i, ¬ (d = e.device ∧ i ∈ e.range) →
    ((r.perform h).memory d).data[i]? = (h.memory d).data[i]?
  unrevealed : ∀ e, r.target h = some e → ∀ m, AgreeOn e h.memory m →
    (r.perform { h with memory := m }).reply = (r.perform h).reply

/-- The request passes the checks on region, permission, alignment and operands
and leaves the region: it starts below the base, where the start is moved up to
the base, or it ends behind the region but not behind the device. -/
def Request.Overruns (h : Host) (r : Request) : Prop :=
  ∃ e op, r.attempt h = some (e, op) ∧ op.Aligned (deviceOffset e r.addr) ∧ 0 < r.count ∧
    ((r.addr.offset.toNat < e.baseOffset.toNat ∧
        e.baseOffset.toNat + r.count ≤ (h.memory e.device).capacity) ∨
      (e.baseOffset.toNat ≤ r.addr.offset.toNat ∧
        e.baseOffset.toNat + e.len.toNat < r.addr.offset.toNat + r.count ∧
        r.addr.offset.toNat + r.count ≤ (h.memory e.device).capacity))

section
variable {h : Host} {r : Request} {e : MrEntry} {op : DeviceOp}

/-- Unless it overruns, an operation the device performs stays in the region. -/
theorem range_of_not_overruns (hno : ¬ r.Overruns h) (ha : r.attempt h = some (e, op))
    (halign : op.Aligned (deviceOffset e r.addr))
    (hfit : (deviceOffset e r.addr).toNat + op.count ≤ (h.memory e.device).capacity) :
    Set.Ico (deviceOffset e r.addr).toNat ((deviceOffset e r.addr).toNat + op.count) = r.range ∧
      r.range ⊆ e.range := by
  have hcount := (Request.attempt_target ha).2
  rw [hcount, toNat_deviceOffset] at hfit ⊢
  rcases Nat.eq_zero_or_pos r.count with hzero | hpos
  · rw [Request.range, hzero, Nat.add_zero, Nat.add_zero, Set.Ico_self, Set.Ico_self]
    exact ⟨rfl, Set.empty_subset _⟩
  · have hge : e.baseOffset.toNat ≤ r.addr.offset.toNat := by
      by_contra hlt
      refine hno ⟨e, op, ha, halign, hpos, Or.inl ⟨Nat.lt_of_not_le hlt, ?_⟩⟩
      rw [max_eq_left (Nat.le_of_not_le hlt)] at hfit
      exact hfit
    rw [max_eq_right hge] at hfit ⊢
    refine ⟨rfl, Set.Ico_subset_Ico hge ?_⟩
    by_contra hgt
    exact hno ⟨e, op, ha, halign, hpos, Or.inr ⟨hge, Nat.lt_of_not_le hgt, hfit⟩⟩

theorem isolated_of_untouched {reply : Reply} (hout : r.perform h = ⟨h.memory, none, reply⟩)
    (hfailed : reply.Failed)
    (hsame : ∀ e, r.target h = some e → ∀ m, AgreeOn e h.memory m →
      (r.perform { h with memory := m }).reply = reply) : Isolated h r := by
  refine ⟨?_, ?_, ?_, ?_⟩
  · intro a hacc
    rw [hout] at hacc
    cases hacc
  · intro _
    rw [hout]
    exact ⟨rfl, hfailed⟩
  · intro e _ d i _
    rw [hout]
  · intro e he m hagree
    rw [hout, hsame e he m hagree]

theorem isolated_of_attempt_eq_none (ha : r.attempt h = none) : Isolated h r := by
  obtain ⟨reply, hfailed, hperform⟩ := Request.perform_of_attempt_eq_none ha
  apply isolated_of_untouched (hperform h.memory) hfailed
  intro e _ m _
  rw [hperform m]

theorem isolated_of_not_overruns (hno : ¬ r.Overruns h) (ha : r.attempt h = some (e, op)) :
    Isolated h r := by
  obtain ⟨reply, hfailed, hperform⟩ := Request.perform_of_attempt_eq_some ha
  have htarget := (Request.attempt_target ha).1
  have hself : r.perform h =
      Request.attempted h.memory e (deviceOffset e r.addr) op reply := hperform h.memory
  cases happly : op.apply (h.memory e.device) (deviceOffset e r.addr) with
  | error err =>
    have hout : r.perform h = ⟨h.memory, none, reply (.error err)⟩ := by
      rw [hself, Request.attempted, happly]
    apply isolated_of_untouched hout (hfailed err)
    intro e' he' m hagree
    obtain rfl : e = e' := Option.some.inj (htarget.symm.trans he')
    rw [hperform m, Request.attempted_reply,
      DeviceOp.apply_error_congr hagree.capacity.symm happly]
    rfl
  | ok result =>
    obtain ⟨d, value⟩ := result
    obtain ⟨halign, hfit⟩ := DeviceOp.apply_isOk_iff.mp ⟨_, happly⟩
    obtain ⟨hrange, hsub⟩ := range_of_not_overruns hno ha halign hfit
    have hout : r.perform h = ⟨Function.update h.memory e.device d,
        some ⟨e.device, op.kind, (deviceOffset e r.addr).toNat, op.count⟩,
        reply (.ok value)⟩ := by
      rw [hself, Request.attempted, happly]
    refine ⟨?_, ?_, ?_, ?_⟩
    · intro a hacc
      rw [hout] at hacc
      cases hacc
      exact ⟨e, htarget, rfl, hrange, hsub⟩
    · intro hacc
      rw [hout] at hacc
      cases hacc
    · intro e' he' dev i hi
      obtain rfl : e = e' := Option.some.inj (htarget.symm.trans he')
      rw [hout]
      dsimp only
      by_cases hdev : dev = e.device
      · subst hdev
        rw [Function.update_self]
        apply DeviceOp.apply_outside happly
        rw [hrange]
        exact fun hmem => hi ⟨rfl, hsub hmem⟩
      · rw [Function.update_of_ne hdev]
    · intro e' he' m hagree
      obtain rfl : e = e' := Option.some.inj (htarget.symm.trans he')
      rw [hperform m, hself, Request.attempted_reply, Request.attempted_reply]
      congr 1
      apply DeviceOp.apply_value_congr hagree.capacity
      intro i hi
      rw [hrange] at hi
      exact hagree.bytes i (hsub hi)

theorem not_isolated_of_overruns (hover : r.Overruns h) : ¬ Isolated h r := by
  intro hiso
  obtain ⟨e, op, ha, halign, hpos, hcases⟩ := hover
  obtain ⟨htarget, hcount⟩ := Request.attempt_target ha
  have hfit : (deviceOffset e r.addr).toNat + op.count ≤ (h.memory e.device).capacity := by
    rw [toNat_deviceOffset, hcount]
    omega
  obtain ⟨⟨d, value⟩, happly⟩ := DeviceOp.apply_isOk_iff.mpr ⟨halign, hfit⟩
  obtain ⟨reply, -, hperform⟩ := Request.perform_of_attempt_eq_some ha
  have haccess : (r.perform h).access =
      some ⟨e.device, op.kind, (deviceOffset e r.addr).toNat, op.count⟩ := by
    have hself : r.perform h =
        Request.attempted h.memory e (deviceOffset e r.addr) op reply := hperform h.memory
    rw [hself, Request.attempted, happly]
  obtain ⟨e', he', -, hrange, hsub⟩ := hiso.executed _ haccess
  obtain rfl : e = e' := Option.some.inj (htarget.symm.trans he')
  rcases hcases with ⟨hbelow, -⟩ | ⟨hge, hbehind, -⟩
  · -- the first byte named lies below the region and is not touched
    have hfirst : r.addr.offset.toNat ∈ r.range := ⟨le_rfl, by omega⟩
    have hin := (hsub hfirst).1
    omega
  · -- the last byte named lies behind the region
    have hlast : r.addr.offset.toNat + r.count - 1 ∈ r.range := ⟨by omega, by omega⟩
    have hin := (hsub hlast).2
    omega

end

/-- A request is isolated exactly when it does not overrun its region. -/
theorem isolated_iff_not_overruns (h : Host) (r : Request) : Isolated h r ↔ ¬ r.Overruns h := by
  constructor
  · exact fun hiso hover => not_isolated_of_overruns hover hiso
  · intro hno
    cases ha : r.attempt h with
    | none => exact isolated_of_attempt_eq_none ha
    | some attempt => exact isolated_of_not_overruns hno ha

/-- A host with one 32-byte device and two regions of 8 bytes on it. -/
def twoRegionHost : Host where
  mrTable :=
    { MrTable.new 1 1 with
      entries := AList.insert 2 ⟨2, 0, 8, 8, .write, UbAddr.new 1 1 0 8 0, by decide⟩
        (AList.insert 1 ⟨1, 0, 0, 8, .write, UbAddr.new 1 1 0 0 0, UbAddr.offset_origin⟩ ∅)
      cells := fun _ => ⟨.active, 0⟩ }
  memory := fun _ => ⟨.memory, 0, List.replicate 32 0⟩
  jettyTable := JettyTable.new 1 16 16

/-- A write of eight bytes at offset 4 of the first region. -/
def overlongWrite : Request :=
  .write ⟨.write, ExtFlags.empty, 1, 0, 0, 0, 0, 0, 1, UbAddr.new 1 1 0 4 0, none⟩
    (List.replicate 8 255)

/-- The write runs over the end of its region and changes the first bytes of the
next one. -/
theorem overlong_write_changes_next_region :
    ((overlongWrite.perform twoRegionHost).memory 0).data[8]? = some 255 ∧
      ¬ Isolated twoRegionHost overlongWrite := by
  have hbyte : ((overlongWrite.perform twoRegionHost).memory 0).data[8]? = some 255 := by decide
  refine ⟨hbyte, fun h => ?_⟩
  obtain ⟨e, he, hrange⟩ : ∃ e, overlongWrite.target twoRegionHost = some e ∧
      e.baseOffset.toNat + e.len.toNat = 8 := by decide
  have hsame := h.unchanged e he 0 8 (fun hin => absurd hin.2.2 (by omega))
  rw [hbyte] at hsame
  exact absurd hsame (by decide)

end UniBus.DataPlane
