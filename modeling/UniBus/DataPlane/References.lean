import UniBus.DataPlane.Panics

/-!
# In-flight references of the handlers

The region handlers once more, in the steps of the source: each takes its
reference, and every way out of it gives the reference back by a call of its own. A
log keeps the calls on devices, with the reference counts before and after, and
the warnings and responses. `none` is a panic.
-/
namespace UniBus.DataPlane

open Wire

inductive HandlerEvent
  /-- A call on the device of a region; no access if the device refuses it. -/
  | device (entry : MrEntry) (before after : UInt32 → MrCell) (access : Option Access)
  | warned (text : String)
  | responded (result : Except UbStatus (List UInt8))

/-- The state of a handler; the log has its newest entry first. -/
structure Handling where
  host : Host
  log : List HandlerEvent

abbrev Steps := StateT Handling Option

namespace Steps

def emit (ev : HandlerEvent) : Steps Unit := modify fun s => { s with log := ev :: s.log }

def warn (text : String) : Steps Unit := emit (.warned text)

def respond (result : Except UbStatus (List UInt8)) : Steps Unit := emit (.responded result)

def lookup (mrHandle : UInt32) : Steps (Option MrEntry) := do
  return (← get).host.mrTable.lookup mrHandle

def tryInflightInc (entry : MrEntry) : Steps Bool := do
  let s ← get
  match s.host.mrTable.tryInflightInc entry with
  | none => return false
  | some mrTable =>
    set { s with host := { s.host with mrTable } }
    return true

def inflightDec (entry : MrEntry) : Steps Unit :=
  modify fun s => { s with host := { s.host with mrTable := s.host.mrTable.inflightDec entry } }

/-- A call on the device of a region. -/
def device {α : Type} (entry : MrEntry)
    (call? : Memory → Option (Except UbError (α × Memory × Access))) :
    Steps (Except UbError α) := do
  let before := (← get).host.mrTable.cells
  match ← call? (← get).host.memory with
  | .error e =>
    let after := (← get).host.mrTable.cells
    emit (.device entry before after none)
    return .error e
  | .ok (a, memory, access) =>
    modify fun s => { s with host := { s.host with memory } }
    let after := (← get).host.mrTable.cells
    emit (.device entry before after (some access))
    return .ok a

def deviceWrite (entry : MrEntry) (offset : UInt64) (payload : List UInt8) :
    Steps (Except UbError Unit) :=
  device entry fun m => (m.write? entry.device offset payload).map fun result =>
    result.map fun (memory, access) => ((), memory, access)

def deviceRead (entry : MrEntry) (offset : UInt64) (len : ℕ) :
    Steps (Except UbError (List UInt8)) :=
  device entry fun m => (m.read? entry.device offset len).map fun result =>
    result.map fun (bytes, access) => (bytes, m, access)

/-- How all five handlers begin. -/
def withRegion (mrHandle : UInt32) (verb : Verb) (refuse : Refusal → Steps Unit)
    (body : MrEntry → Steps Unit) : Steps Unit := do
  match ← lookup mrHandle with
  | none => refuse .notFound
  | some entry =>
    if ¬ (← tryInflightInc entry) then refuse .deregistering
    else
      match entry.checkPerms verb with
      | .error e =>
        inflightDec entry
        refuse (.denied e)
      | .ok () => body entry

def handleWrite (payload : List UInt8) (ext : DataExtHeader) : Steps Unit :=
  withRegion ext.mrHandle .write (fun r => warn (refusalWarning "WRITE" ext.mrHandle r))
    fun entry => do
      let offset ← deviceOffset? entry ext.ubAddr
      match ← deviceWrite entry offset payload with
      | .error e => warn ("WRITE: device write error: " ++ e.display)
      | .ok () => pure ()
      inflightDec entry

def handleReadReq (payload : List UInt8) (ext : DataExtHeader) : Steps Unit :=
  withRegion ext.mrHandle .readReq (fun r => respond (.error (refusalStatus r))) fun entry => do
    let len ← readLen? payload
    let offset ← deviceOffset? entry ext.ubAddr
    match ← deviceRead entry offset len with
    | .ok bytes => respond (.ok bytes)
    | .error _ => respond (.error 1)
    inflightDec entry

/-- Both atomic handlers. -/
def handleAtomic (verb : Verb) (operandBytes : ℕ)
    (act? : Memory → DeviceRef → UInt64 → Option (Except UbError (UInt64 × Memory × Access)))
    (payload : List UInt8) (ext : DataExtHeader) : Steps Unit :=
  withRegion ext.mrHandle verb (fun r => respond (.error (refusalStatus r))) fun entry => do
    let offsetInMr ← offsetInMr? entry ext.ubAddr
    if offsetInMr % 8 ≠ 0 then
      inflightDec entry
      respond (.error 3)
    else
      let offset ← deviceOffset? entry ext.ubAddr
      if payload.length < operandBytes then
        inflightDec entry
        respond (.error 9)
      else
        match ← device entry fun m => act? m entry.device offset with
        | .ok old => respond (.ok (atomicReply old))
        | .error _ => respond (.error 9)
        inflightDec entry

def handleAtomicCas (payload : List UInt8) (ext : DataExtHeader) : Steps Unit :=
  handleAtomic .atomicCas 16
    (fun m r offset => do m.atomicCas? r offset (← operand? payload 0) (← operand? payload 1))
    payload ext

def handleAtomicFaa (payload : List UInt8) (ext : DataExtHeader) : Steps Unit :=
  handleAtomic .atomicFaa 8
    (fun m r offset => do m.atomicFaa? r offset (← operand? payload 0)) payload ext

def handleWriteImm (payload : List UInt8) (ext : DataExtHeader) : Steps Unit :=
  withRegion ext.mrHandle .writeImm (fun r => warn (refusalWarning "WRITE_IMM" ext.mrHandle r))
    fun entry => do
      let offset ← deviceOffset? entry ext.ubAddr
      match ← deviceWrite entry offset payload with
      | .error e =>
        inflightDec entry
        warn ("WRITE_IMM: device write error: " ++ e.display)
      | .ok () =>
        match (← get).host.jettyTable.lookup ext.jettyDst with
        | none =>
          inflightDec entry
          warn ("WRITE_IMM: jetty " ++ toString ext.jettyDst ++
            " not found, write completed but no CQE")
        | some jetty =>
          match jetty.pushCqe
              ⟨0, ubOk, ext.imm, UInt32.ofNat payload.length, ext.jettyDst, .writeImm⟩ with
          | .error e =>
            warn ("WRITE_IMM: failed to push CQE to jetty " ++ toString ext.jettyDst ++ ": " ++
              e.display)
          | .ok jetty =>
            modify fun s =>
              { s with
                host := { s.host with jettyTable := s.host.jettyTable.store jetty ext.jettyDst } }
          inflightDec entry

/-! ## Runs of the handlers -/

theorem run_lift_bind {α β : Type} (x : Option α) (rest : α → Steps β) (s : Handling) :
    ((liftM x : Steps α) >>= rest).run s = x.bind fun a => (rest a).run s := by
  cases x <;> rfl

theorem run_device_bind {α β : Type} (entry : MrEntry)
    (call? : Memory → Option (Except UbError (α × Memory × Access)))
    (rest : Except UbError α → Steps β) (s : Handling) :
    (device entry call? >>= rest).run s = (call? s.host.memory).bind fun
      | .error e =>
        (rest (.error e)).run { s with
          log := .device entry s.host.mrTable.cells s.host.mrTable.cells none :: s.log }
      | .ok (a, memory, access) =>
        (rest (.ok a)).run ⟨{ s.host with memory },
          .device entry s.host.mrTable.cells s.host.mrTable.cells (some access) :: s.log⟩ := by
  cases hcall : call? s.host.memory with
  | none => simp [device, hcall]
  | some result => cases result <;> simp [device, hcall, emit]

theorem run_withRegion (mrHandle : UInt32) (verb : Verb) (refuse : Refusal → Steps Unit)
    (body : MrEntry → Steps Unit) (s : Handling) :
    (withRegion mrHandle verb refuse body).run s =
      match acquire s.host.mrTable mrHandle verb with
      | .error r => (refuse r).run s
      | .ok (entry, mrTable) =>
        (body entry).run { s with host := { s.host with mrTable } } := by
  obtain ⟨⟨mrTable, memory, jettyTable⟩, log⟩ := s
  simp only [withRegion, acquire, lookup, tryInflightInc, MrTable.tryInflightInc]
  cases hlookup : mrTable.lookup mrHandle with
  | none => simp [hlookup]
  | some entry =>
    by_cases hactive : (mrTable.cells entry.handle).state = .active
    · cases hperms : entry.checkPerms verb with
      | error e => simp [hlookup, hactive, hperms, inflightDec]
      | ok => simp [hlookup, hactive, hperms]
    · simp [hlookup, hactive]

/-- The call on a device in the log: it is made with the counts of the table that has
the reference. -/
def callEvents (called : Option (MrEntry × MrTable)) (access : Option Access) :
    List HandlerEvent :=
  match called with
  | none => []
  | some (entry, mrTable) => [.device entry mrTable.cells mrTable.cells access]

def warnings (result : Option String) : List HandlerEvent := result.toList.map .warned

def response (result : Except UbStatus (List UInt8)) : List HandlerEvent := [.responded result]

/-- The end of a run: the host, the reply and the device call of the handler. -/
def outcome {α : Type} (replies : α → List HandlerEvent) (called : Option (MrEntry × MrTable))
    (log : List HandlerEvent) (handled : Handled α) : Unit × Handling :=
  ((), ⟨handled.host, replies handled.result ++ (callEvents called handled.access ++ log)⟩)

section
variable (h : Host) (log : List HandlerEvent) (payload : List UInt8) (ext : DataExtHeader)

theorem run_handleWrite :
    (handleWrite payload ext).run ⟨h, log⟩ =
      (handleWrite? h payload ext).map
        (outcome warnings (acquire h.mrTable ext.mrHandle .write).toOption log) := by
  rw [handleWrite, run_withRegion, handleWrite?]
  cases acquire h.mrTable ext.mrHandle .write with
  | error r => rfl
  | ok acquired =>
    obtain ⟨entry, mrTable⟩ := acquired
    dsimp only
    rw [run_lift_bind, deviceOffset?_eq, Option.bind_some, deviceWrite, run_device_bind]
    dsimp only [Option.bind_eq_bind, Option.bind_some]
    cases h.memory.write? entry.device (deviceOffset entry ext.ubAddr) payload with
    | none => rfl
    | some result => cases result <;> rfl

theorem run_handleWriteImm :
    (handleWriteImm payload ext).run ⟨h, log⟩ =
      (handleWriteImm? h payload ext).map
        (outcome warnings (acquire h.mrTable ext.mrHandle .writeImm).toOption log) := by
  rw [handleWriteImm, run_withRegion, handleWriteImm?]
  cases acquire h.mrTable ext.mrHandle .writeImm with
  | error r => rfl
  | ok acquired =>
    obtain ⟨entry, mrTable⟩ := acquired
    dsimp only
    rw [run_lift_bind, deviceOffset?_eq, Option.bind_some, deviceWrite, run_device_bind]
    dsimp only [Option.bind_eq_bind, Option.bind_some]
    cases h.memory.write? entry.device (deviceOffset entry ext.ubAddr) payload with
    | none => rfl
    | some result =>
      cases result with
      | error e => rfl
      | ok written =>
        dsimp only [Option.map_some, Except.map, Option.bind_some]
        cases hjetty : h.jettyTable.lookup ext.jettyDst with
        | none =>
          simp [hjetty, notifyJetty, inflightDec, warn, emit, outcome, warnings, callEvents,
            Except.toOption]
        | some jetty =>
          cases hpush : jetty.pushCqe
              ⟨0, ubOk, ext.imm, UInt32.ofNat payload.length, ext.jettyDst, .writeImm⟩ with
          | error e =>
            simp [hjetty, hpush, notifyJetty, inflightDec, warn, emit, outcome, warnings,
              callEvents, Except.toOption]
          | ok jetty' =>
            simp [hjetty, hpush, notifyJetty, inflightDec, outcome, warnings, callEvents,
              Except.toOption]

theorem run_handleReadReq :
    (handleReadReq payload ext).run ⟨h, log⟩ =
      (handleReadReq? h payload ext).map
        (outcome response (acquire h.mrTable ext.mrHandle .readReq).toOption log) := by
  rw [handleReadReq, run_withRegion, handleReadReq?]
  cases acquire h.mrTable ext.mrHandle .readReq with
  | error r => rfl
  | ok acquired =>
    obtain ⟨entry, mrTable⟩ := acquired
    dsimp only
    rw [run_lift_bind, readLen?_eq, Option.bind_some, run_lift_bind, deviceOffset?_eq,
      Option.bind_some, deviceRead, run_device_bind]
    dsimp only [Option.bind_eq_bind, Option.bind_some]
    cases h.memory.read? entry.device (deviceOffset entry ext.ubAddr) (readLen payload) with
    | none => rfl
    | some result => cases result <;> rfl

/-- The device of an atomic request is called only after the alignment and the
operands are checked. -/
def atomicCalled (verb : Verb) (operandBytes : ℕ) : Option (MrEntry × MrTable) :=
  (acquire h.mrTable ext.mrHandle verb).toOption.bind fun called =>
    if offsetInMr called.1 ext.ubAddr % 8 ≠ 0 ∨ payload.length < operandBytes then none
    else some called

theorem run_handleAtomic (verb : Verb) (operandBytes : ℕ)
    (act? : Memory → DeviceRef → UInt64 → Option (Except UbError (UInt64 × Memory × Access))) :
    (handleAtomic verb operandBytes act? payload ext).run ⟨h, log⟩ =
      (handleAtomic? h verb operandBytes act? payload ext).map
        (outcome response (atomicCalled h payload ext verb operandBytes) log) := by
  rw [handleAtomic, run_withRegion, handleAtomic?, atomicCalled]
  cases acquire h.mrTable ext.mrHandle verb with
  | error r => rfl
  | ok acquired =>
    obtain ⟨entry, mrTable⟩ := acquired
    dsimp only
    rw [run_lift_bind, offsetInMr?_eq, Option.bind_some, deviceOffset?_eq]
    dsimp only [Option.bind_eq_bind, Option.bind_some]
    dsimp only [Except.toOption, Option.bind_some]
    by_cases halign : offsetInMr entry ext.ubAddr % 8 ≠ 0
    · rw [if_pos halign, if_pos halign, if_pos (Or.inl halign)]
      rfl
    · rw [if_neg halign, if_neg halign, run_lift_bind, Option.bind_some]
      by_cases hlen : payload.length < operandBytes
      · rw [if_pos hlen, if_pos hlen, if_pos (Or.inr hlen)]
        rfl
      · rw [if_neg hlen, if_neg hlen, if_neg (not_or.mpr ⟨halign, hlen⟩), run_device_bind]
        dsimp only
        cases act? h.memory entry.device (deviceOffset entry ext.ubAddr) with
        | none => rfl
        | some result => cases result <;> rfl

end
end Steps

/-! ## Balance -/

theorem eq_inflightAdd_of_acquire {t t' : MrTable} {mrHandle : UInt32} {verb : Verb}
    {entry : MrEntry} (h : acquire t mrHandle verb = .ok (entry, t')) :
    t' = t.inflightAdd entry.handle 1 := by
  simp only [acquire, MrTable.tryInflightInc] at h
  cases hlookup : t.lookup mrHandle with
  | none => simp [hlookup] at h
  | some e =>
    by_cases hactive : (t.cells e.handle).state = .active
    · cases hperms : e.checkPerms verb with
      | error err => simp [hlookup, hactive, hperms] at h
      | ok =>
        simp only [hlookup, hactive, hperms, ne_eq, not_true_eq_false, if_false,
          Except.ok.injEq, Prod.mk.injEq] at h
        rw [← h.1, ← h.2]
    · simp [hlookup, hactive] at h

/-- The reference that a handler has taken is in the table when it gives it back. -/
theorem inflightDec_of_acquire {t t' : MrTable} {mrHandle : UInt32} {verb : Verb}
    {entry : MrEntry} (h : acquire t mrHandle verb = .ok (entry, t')) :
    t'.inflightDec entry = t := by
  rw [eq_inflightAdd_of_acquire h, MrTable.inflightDec_inflightAdd]

/-- A handler that releases its region on every way out leaves the table as it was. -/
theorem mrTable_of_released {α : Type} {t : MrTable} {mrHandle : UInt32} {verb : Verb}
    {refused : Refusal → Handled α} {served : MrEntry → MrTable → Handled α}
    (hrefused : ∀ r, (refused r).host.mrTable = t)
    (hserved : ∀ entry t', (served entry t').host.mrTable = t'.inflightDec entry) :
    (match acquire t mrHandle verb with
      | .error r => refused r
      | .ok (entry, t') => served entry t').host.mrTable = t := by
  cases hacquire : acquire t mrHandle verb with
  | error r => exact hrefused r
  | ok acquired => exact (hserved _ _).trans (inflightDec_of_acquire hacquire)

section
variable (h : Host) (payload : List UInt8) (ext : DataExtHeader)

theorem mrTable_handleWrite : (handleWrite h payload ext).host.mrTable = h.mrTable := by
  apply mrTable_of_released
  · intro r
    rfl
  · intro entry t
    dsimp only
    split <;> rfl

theorem mrTable_handleWriteImm : (handleWriteImm h payload ext).host.mrTable = h.mrTable := by
  apply mrTable_of_released
  · intro r
    rfl
  · intro entry t
    dsimp only
    split <;> rfl

theorem mrTable_handleReadReq : (handleReadReq h payload ext).host.mrTable = h.mrTable := by
  apply mrTable_of_released
  · intro r
    rfl
  · intro entry t
    dsimp only
    split <;> rfl

theorem mrTable_handleAtomic (verb : Verb) (operandBytes : ℕ)
    (act : Memory → DeviceRef → UInt64 → Except UbError (UInt64 × Memory × Access)) :
    (handleAtomic h verb operandBytes act payload ext).host.mrTable = h.mrTable := by
  apply mrTable_of_released
  · intro r
    rfl
  · intro entry t
    dsimp only
    split_ifs
    · rfl
    · rfl
    · split <;> rfl

end

/-- During a device call the count of the region is one above that of the table. -/
def HandlerEvent.Counted (t : MrTable) : HandlerEvent → Prop
  | .device entry before after _ =>
    (before entry.handle).inflightRefs = (t.cells entry.handle).inflightRefs + 1 ∧
      (after entry.handle).inflightRefs = (t.cells entry.handle).inflightRefs + 1
  | _ => True

theorem counted_callEvents {t : MrTable} {called : Option (MrEntry × MrTable)}
    (hcalled : ∀ entry t', called = some (entry, t') → t' = t.inflightAdd entry.handle 1)
    (access : Option Access) : ∀ ev ∈ Steps.callEvents called access, ev.Counted t := by
  intro ev hev
  cases called with
  | none => cases hev
  | some call =>
    obtain ⟨entry, t'⟩ := call
    obtain rfl := List.mem_singleton.mp hev
    rw [hcalled entry t' rfl]
    simp [HandlerEvent.Counted, MrTable.inflightAdd]

theorem acquired_of_toOption {t : MrTable} {mrHandle : UInt32} {verb : Verb} (entry : MrEntry)
    (t' : MrTable) (h : (acquire t mrHandle verb).toOption = some (entry, t')) :
    t' = t.inflightAdd entry.handle 1 := by
  cases hacquire : acquire t mrHandle verb with
  | error r => simp [hacquire, Except.toOption] at h
  | ok acquired =>
    simp only [hacquire, Except.toOption, Option.some.injEq] at h
    rw [h] at hacquire
    exact eq_inflightAdd_of_acquire hacquire

theorem acquired_of_atomicCalled {h : Host} {payload : List UInt8} {ext : DataExtHeader}
    {verb : Verb} {operandBytes : ℕ} (entry : MrEntry) (t' : MrTable)
    (hcalled : Steps.atomicCalled h payload ext verb operandBytes = some (entry, t')) :
    t' = h.mrTable.inflightAdd entry.handle 1 := by
  obtain ⟨called, hacquire, hsome⟩ := Option.bind_eq_some_iff.mp hcalled
  split_ifs at hsome
  rw [Option.some.inj hsome] at hacquire
  exact acquired_of_toOption entry t' hacquire

/-- The handlers that use a region. -/
inductive RegionVerb
  | write
  | readReq
  | atomicCas
  | atomicFaa
  | writeImm
  deriving DecidableEq, Repr

structure RegionFrame where
  verb : RegionVerb
  payload : List UInt8
  ext : DataExtHeader

namespace RegionFrame

def handle (f : RegionFrame) : Steps Unit :=
  match f.verb with
  | .write => Steps.handleWrite f.payload f.ext
  | .readReq => Steps.handleReadReq f.payload f.ext
  | .atomicCas => Steps.handleAtomicCas f.payload f.ext
  | .atomicFaa => Steps.handleAtomicFaa f.payload f.ext
  | .writeImm => Steps.handleWriteImm f.payload f.ext

def deviceCall (h : Host) (f : RegionFrame) : Option DeviceCall :=
  match f.verb with
  | .write => writeCall h .write f.payload f.ext
  | .readReq => readCall h f.payload f.ext
  | .atomicCas => atomicCall h .atomicCas 16 f.payload f.ext
  | .atomicFaa => atomicCall h .atomicFaa 8 f.payload f.ext
  | .writeImm => writeCall h .writeImm f.payload f.ext

/-- A run of a handler from a host: it panics in the arithmetic of the device, or ends
with the table that it found and has counted itself in every device call. -/
def Balances (h : Host) (log : List HandlerEvent) (call : Option DeviceCall)
    (run : Option (Unit × Handling)) : Prop :=
  ∃ host events, host.mrTable = h.mrTable ∧ (∀ ev ∈ events, ev.Counted h.mrTable) ∧
    run = if Fits call then some ((), ⟨host, events ++ log⟩) else none

theorem balances_of_handled {α : Type} {h : Host} {log : List HandlerEvent}
    {call : Option DeviceCall} {handled : Handled α} {replies : α → List HandlerEvent}
    {called : Option (MrEntry × MrTable)} (htable : handled.host.mrTable = h.mrTable)
    (hreplies : ∀ ev ∈ replies handled.result, ev.Counted h.mrTable)
    (hcalled : ∀ entry t', called = some (entry, t') → t' = h.mrTable.inflightAdd entry.handle 1) :
    Balances h log call
      ((if Fits call then some handled else none).map (Steps.outcome replies called log)) := by
  refine ⟨handled.host, replies handled.result ++ Steps.callEvents called handled.access, htable,
    ?_, ?_⟩
  · intro ev hev
    rcases List.mem_append.mp hev with hreply | hcall
    · exact hreplies ev hreply
    · exact counted_callEvents hcalled _ ev hcall
  · rw [List.append_assoc]
    split_ifs <;> rfl

theorem counted_warnings (t : MrTable) (result : Option String) :
    ∀ ev ∈ Steps.warnings result, ev.Counted t := by
  intro ev hev
  obtain ⟨text, -, rfl⟩ := List.mem_map.mp hev
  trivial

theorem counted_response (t : MrTable) (result : Except UbStatus (List UInt8)) :
    ∀ ev ∈ Steps.response result, ev.Counted t := by
  intro ev hev
  obtain rfl := List.mem_singleton.mp hev
  trivial

theorem balances_handle (f : RegionFrame) (h : Host) (log : List HandlerEvent) :
    Balances h log (f.deviceCall h) (f.handle.run ⟨h, log⟩) := by
  obtain ⟨verb, payload, ext⟩ := f
  cases verb with
  | write =>
    dsimp only [handle, deviceCall]
    rw [Steps.run_handleWrite, handleWrite?_eq]
    apply balances_of_handled
    · exact mrTable_handleWrite h payload ext
    · exact counted_warnings _ _
    · exact acquired_of_toOption
  | writeImm =>
    dsimp only [handle, deviceCall]
    rw [Steps.run_handleWriteImm, handleWriteImm?_eq]
    apply balances_of_handled
    · exact mrTable_handleWriteImm h payload ext
    · exact counted_warnings _ _
    · exact acquired_of_toOption
  | readReq =>
    dsimp only [handle, deviceCall]
    rw [Steps.run_handleReadReq, handleReadReq?_eq]
    apply balances_of_handled
    · exact mrTable_handleReadReq h payload ext
    · exact counted_response _ _
    · exact acquired_of_toOption
  | atomicCas =>
    dsimp only [handle, deviceCall, Steps.handleAtomicCas]
    rw [Steps.run_handleAtomic, ← handleAtomicCas?, handleAtomicCas?_eq]
    apply balances_of_handled
    · exact mrTable_handleAtomic h payload ext _ _ _
    · exact counted_response _ _
    · exact acquired_of_atomicCalled
  | atomicFaa =>
    dsimp only [handle, deviceCall, Steps.handleAtomicFaa]
    rw [Steps.run_handleAtomic, ← handleAtomicFaa?, handleAtomicFaa?_eq]
    apply balances_of_handled
    · exact mrTable_handleAtomic h payload ext _ _ _
    · exact counted_response _ _
    · exact acquired_of_atomicCalled

/-- Frames handled one after the other, without a panic, leave the table as it was. -/
theorem mrTable_forM (frames : List RegionFrame) {s s' : Handling}
    (hrun : (forM frames handle).run s = some ((), s')) : s'.host.mrTable = s.host.mrTable := by
  induction frames generalizing s with
  | nil =>
    cases hrun
    rfl
  | cons f frames ih =>
    obtain ⟨host, events, htable, -, hf⟩ := f.balances_handle s.host s.log
    rw [List.forM_cons, StateT.run_bind, hf] at hrun
    split_ifs at hrun with hfits
    · rw [ih hrun, htable]
    · cases hrun

/-- A handler whose frame does not overflow the arithmetic of the device returns with
the counts that it found, and the count of its region is one higher before and after
its device call. After it and any further frames the counts are still the same. -/
theorem inflight_refs_balanced (h : Host) (f : RegionFrame) (hfits : Fits (f.deviceCall h)) :
    ∃ s, f.handle.run ⟨h, []⟩ = some ((), s) ∧
      (∀ mr, (s.host.mrTable.cells mr).inflightRefs = (h.mrTable.cells mr).inflightRefs) ∧
      (∀ entry before after access, .device entry before after access ∈ s.log →
        (before entry.handle).inflightRefs = (h.mrTable.cells entry.handle).inflightRefs + 1 ∧
          (after entry.handle).inflightRefs =
            (h.mrTable.cells entry.handle).inflightRefs + 1) ∧
      ∀ (frames : List RegionFrame) s', (forM frames handle).run s = some ((), s') →
        ∀ mr, (s'.host.mrTable.cells mr).inflightRefs = (h.mrTable.cells mr).inflightRefs := by
  obtain ⟨host, events, htable, hcounted, hrun⟩ := f.balances_handle h []
  rw [if_pos hfits, List.append_nil] at hrun
  refine ⟨⟨host, events⟩, hrun, ?_, ?_, ?_⟩
  · intro mr
    rw [htable]
  · intro entry before after access hmem
    exact hcounted _ hmem
  · intro frames s' hframes mr
    rw [mrTable_forM frames hframes, htable]

def oneByteFrame : RegionFrame :=
  ⟨.write, [7],
    ⟨.write, ExtFlags.empty, 1, 0, 0, 1, 0, 0, 1, UbAddr.new 1 1 0 3 0, none⟩⟩

/-- The counts around the device calls of a log. -/
def callCounts (log : List HandlerEvent) : List (ℤ × ℤ) :=
  log.filterMap fun
    | .device entry before after _ =>
      some ((before entry.handle).inflightRefs, (after entry.handle).inflightRefs)
    | _ => none

theorem inflight_refs_balanced_write :
    ∃ s, oneByteFrame.handle.run ⟨writableNode.host, []⟩ = some ((), s) ∧
      (s.host.mrTable.cells 1).inflightRefs = 0 ∧ callCounts s.log = [(1, 1)] := by
  have hfits : Fits (oneByteFrame.deviceCall writableNode.host) := by decide +kernel
  have hcounts : (oneByteFrame.handle.run ⟨writableNode.host, []⟩).map
      (fun out => callCounts out.2.log) = some [(1, 1)] := by
    decide +kernel
  obtain ⟨s, hrun, hrefs, -, -⟩ := inflight_refs_balanced writableNode.host oneByteFrame hfits
  rw [hrun] at hcounts
  refine ⟨s, hrun, ?_, Option.some.inj hcounts⟩
  rw [hrefs]
  decide +kernel

end RegionFrame
end UniBus.DataPlane
