import UniBus.DataPlane.Handlers
import UniBus.Foundations.Runs
import Mathlib.Data.List.Forall2

/-!
# Receive buffers and completions

The application posts receive buffers on its Jettys and polls their completion
queues while messages and immediate writes arrive. The log records the buffers
that were accepted, the immediate writes that reached the device and the
completions that were polled. Every buffer and every immediate write should end
in one completion, and the completion of a message should lead to its body.
-/
namespace UniBus.DataPlane

open Wire

/-! ## Runs of the handlers and the application -/

inductive JettyInput
  | postRecv (handle : UInt32) (buf : List UInt8) (wrId : UInt64)
  | send (payload : List UInt8) (ext : DataExtHeader)
  | writeImm (payload : List UInt8) (ext : DataExtHeader)
  | pollCqe (handle : UInt32)

inductive JettyEvent
  | accepted (handle : UInt32) (buf : RecvBuffer)
  /-- An immediate write for the Jetty has written the device. -/
  | executed (handle : UInt32) (imm : Option UInt64) (byteLen : ℕ)
  | polled (handle : UInt32) (cqe : Cqe)
  deriving DecidableEq, Repr

def Host.storeJetty (h : Host) (jetty : Jetty) (handle : UInt32) : Host :=
  { h with jettyTable := h.jettyTable.store jetty handle }

def Host.jettyStep (h : Host) : JettyInput → Host × List JettyEvent
  | .postRecv handle buf wrId =>
    match h.jettyTable.lookup handle with
    | none => (h, [])
    | some jetty =>
      match jetty.postRecv buf wrId with
      | .error _ => (h, [])
      | .ok jetty => (h.storeJetty jetty handle, [.accepted handle ⟨buf, wrId⟩])
  | .send payload ext => ((handleSend h payload ext).1, [])
  | .writeImm payload ext =>
    let handled := handleWriteImm h payload ext
    (handled.host,
      if handled.access.isSome then [.executed ext.jettyDst ext.imm payload.length] else [])
  | .pollCqe handle =>
    match h.jettyTable.lookup handle with
    | none => (h, [])
    | some jetty =>
      match jetty.pollCqe with
      | none => (h, [])
      | some (cqe, jetty) => (h.storeJetty jetty handle, [.polled handle cqe])

/-! ## What the log says about one Jetty -/

def JettyEvent.acceptedOn (d : UInt32) : JettyEvent → Option RecvBuffer
  | .accepted handle buf => if handle = d then some buf else none
  | _ => none

def JettyEvent.polledOn (d : UInt32) : JettyEvent → Option Cqe
  | .polled handle cqe => if handle = d then some cqe else none
  | _ => none

/-- The completion owed for an executed immediate write. -/
def JettyEvent.owedOn (d : UInt32) : JettyEvent → Option Cqe
  | .executed handle imm byteLen =>
    if handle = d then some ⟨0, ubOk, imm, UInt32.ofNat byteLen, d, .writeImm⟩ else none
  | _ => none

def accepted (d : UInt32) (log : List JettyEvent) : List RecvBuffer :=
  log.filterMap (JettyEvent.acceptedOn d)

def polled (d : UInt32) (log : List JettyEvent) : List Cqe :=
  log.filterMap (JettyEvent.polledOn d)

def owed (d : UInt32) (log : List JettyEvent) : List Cqe :=
  log.filterMap (JettyEvent.owedOn d)

/-- All completions a Jetty has produced: those polled and those still queued. -/
def produced (d : UInt32) (log : List JettyEvent) (jetty : Jetty) : List Cqe :=
  polled d log ++ jetty.jfc

def Cqe.isOf (verb : Verb) (cqe : Cqe) : Bool := cqe.verb == verb

/-- Nothing is lost: the accepted buffers are those consumed and those still
posted, the consumed ones match the message completions one to one, and the
completions of immediate writes are those owed. -/
structure Accounted (d : UInt32) (log : List JettyEvent) (jetty : Jetty) : Prop where
  received : ∃ consumed, accepted d log = consumed ++ jetty.jfr ∧
    List.Forall₂ (fun buf cqe => cqe.wrId = buf.wrId) consumed
      ((produced d log jetty).filter (Cqe.isOf .send))
  notified : (produced d log jetty).filter (Cqe.isOf .writeImm) = owed d log

/-- A frame that needs a completion finds room for it. -/
def RoomFor (d : UInt32) (h : Host) : JettyInput → Prop
  | .send _ ext => ext.jettyDst = d → ∀ jetty ∈ h.jettyTable.lookup d,
      jetty.jfr ≠ [] → jetty.jfc.length < jetty.jfcDepth.toNat
  | .writeImm _ ext => ext.jettyDst = d → ∀ jetty ∈ h.jettyTable.lookup d,
      jetty.jfc.length < jetty.jfcDepth.toNat
  | _ => True

/-! ## One step at one Jetty -/

/-- The step takes some buffers from the front of the receive queue and adds
completions that pay for them and for the immediate writes it executed. -/
structure JettyFlow (d : UInt32) (jetty jetty' : Jetty) (events : List JettyEvent)
    (taken : List RecvBuffer) (new : List Cqe) : Prop where
  buffers : jetty.jfr ++ accepted d events = taken ++ jetty'.jfr
  completions : jetty.jfc ++ new = polled d events ++ jetty'.jfc
  sends : List.Forall₂ (fun buf cqe => cqe.wrId = buf.wrId) taken (new.filter (Cqe.isOf .send))
  writes : new.filter (Cqe.isOf .writeImm) = owed d events

/-- No event of the list is about the Jetty. -/
def Elsewhere (d : UInt32) (events : List JettyEvent) : Prop :=
  accepted d events = [] ∧ polled d events = [] ∧ owed d events = []

section
variable {d : UInt32} {log events : List JettyEvent} {jetty jetty' : Jetty}
  {taken : List RecvBuffer} {new : List Cqe}

theorem elsewhere_nil : Elsewhere d [] := ⟨rfl, rfl, rfl⟩

theorem elsewhere_accepted {handle : UInt32} (hne : handle ≠ d) (buf : RecvBuffer) :
    Elsewhere d [.accepted handle buf] := by
  simp [Elsewhere, accepted, polled, owed, JettyEvent.acceptedOn, JettyEvent.polledOn,
    JettyEvent.owedOn, hne]

theorem elsewhere_polled {handle : UInt32} (hne : handle ≠ d) (cqe : Cqe) :
    Elsewhere d [.polled handle cqe] := by
  simp [Elsewhere, accepted, polled, owed, JettyEvent.acceptedOn, JettyEvent.polledOn,
    JettyEvent.owedOn, hne]

theorem elsewhere_executed {handle : UInt32} (hne : handle ≠ d) (imm : Option UInt64)
    (byteLen : ℕ) : Elsewhere d [.executed handle imm byteLen] := by
  simp [Elsewhere, accepted, polled, owed, JettyEvent.acceptedOn, JettyEvent.polledOn,
    JettyEvent.owedOn, hne]

theorem JettyFlow.stay (h : Elsewhere d events) : JettyFlow d jetty jetty events [] [] where
  buffers := by simp [h.1]
  completions := by simp [h.2.1]
  sends := List.Forall₂.nil
  writes := h.2.2.symm

theorem Accounted.flow (h : Accounted d log jetty)
    (hflow : JettyFlow d jetty jetty' events taken new) :
    Accounted d (log ++ events) jetty' := by
  obtain ⟨⟨consumed, haccepted, hsends⟩, hnotified⟩ := h
  have hproduced : produced d (log ++ events) jetty' = produced d log jetty ++ new := by
    rw [produced, produced, polled, List.filterMap_append, List.append_assoc, List.append_assoc,
      hflow.completions]
    rfl
  constructor
  · refine ⟨consumed ++ taken, ?_, ?_⟩
    · rw [accepted, List.filterMap_append, ← accepted, ← accepted, haccepted, List.append_assoc,
        List.append_assoc, hflow.buffers]
    · rw [hproduced, List.filter_append]
      exact List.rel_append hsends hflow.sends
  · rw [hproduced, List.filter_append, hnotified, hflow.writes, owed, owed, owed,
      List.filterMap_append]

theorem accounted_fresh (hjfr : jetty.jfr = []) (hjfc : jetty.jfc = []) :
    Accounted d [] jetty where
  received := ⟨[], by simp [accepted, hjfr], by simp [produced, polled, hjfc]⟩
  notified := by simp [produced, polled, owed, hjfc]

end

/-! ## The steps of the code -/

section
variable {h : Host} {d handle : UInt32} {jetty : Jetty}

theorem lookup_storeJetty (jetty : Jetty) :
    (h.storeJetty jetty d).jettyTable.lookup d = some jetty :=
  AList.lookup_insert _

theorem lookup_storeJetty_ne (hne : handle ≠ d) (jetty : Jetty) :
    (h.storeJetty jetty handle).jettyTable.lookup d = h.jettyTable.lookup d :=
  AList.lookup_insert_ne hne.symm

/-- The Jetty after the step is one that the flow of the step leads to. -/
def Flows (d : UInt32) (jetty : Jetty) (out : Host × List JettyEvent) : Prop :=
  ∃ jetty' taken new, out.1.jettyTable.lookup d = some jetty' ∧
    JettyFlow d jetty jetty' out.2 taken new

theorem flows_of_lookup {out : Host × List JettyEvent}
    (hlookup : out.1.jettyTable.lookup d = some jetty) (hevents : Elsewhere d out.2) :
    Flows d jetty out :=
  ⟨jetty, [], [], hlookup, .stay hevents⟩

theorem postRecv_flows (hd : h.jettyTable.lookup d = some jetty) (buf : List UInt8)
    (wrId : UInt64) : Flows d jetty (h.jettyStep (.postRecv handle buf wrId)) := by
  simp only [Host.jettyStep]
  cases hlookup : h.jettyTable.lookup handle with
  | none => exact flows_of_lookup hd elsewhere_nil
  | some target =>
    dsimp only
    cases hpost : target.postRecv buf wrId with
    | error e => exact flows_of_lookup hd elsewhere_nil
    | ok target' =>
      by_cases hne : handle = d
      · subst hne
        cases hd.symm.trans hlookup
        unfold Jetty.postRecv at hpost
        split_ifs at hpost
        cases hpost
        refine ⟨_, [], [], lookup_storeJetty _, ?_⟩
        exact ⟨by simp [accepted, JettyEvent.acceptedOn], by simp [polled, JettyEvent.polledOn],
          .nil, by simp [owed, JettyEvent.owedOn]⟩
      · exact flows_of_lookup ((lookup_storeJetty_ne hne _).trans hd)
          (elsewhere_accepted hne _)

theorem pollCqe_flows (hd : h.jettyTable.lookup d = some jetty) :
    Flows d jetty (h.jettyStep (.pollCqe handle)) := by
  simp only [Host.jettyStep]
  cases hlookup : h.jettyTable.lookup handle with
  | none => exact flows_of_lookup hd elsewhere_nil
  | some target =>
    dsimp only
    cases hpoll : target.pollCqe with
    | none => exact flows_of_lookup hd elsewhere_nil
    | some polledCqe =>
      obtain ⟨cqe, target'⟩ := polledCqe
      by_cases hne : handle = d
      · subst hne
        cases hd.symm.trans hlookup
        unfold Jetty.pollCqe at hpoll
        split at hpoll
        · cases hpoll
        · next cqe' rest hjfc =>
          cases hpoll
          refine ⟨_, [], [], lookup_storeJetty _, ?_⟩
          exact ⟨by simp [accepted, JettyEvent.acceptedOn],
            by simp [polled, JettyEvent.polledOn, hjfc], .nil, by simp [owed, JettyEvent.owedOn]⟩
      · exact flows_of_lookup ((lookup_storeJetty_ne hne _).trans hd)
          (elsewhere_polled hne _)

theorem pushCqe_of_room (jetty : Jetty) (hroom : jetty.jfc.length < jetty.jfcDepth.toNat)
    (cqe : Cqe) : jetty.pushCqe cqe = .ok { jetty with jfc := jetty.jfc ++ [cqe] } :=
  if_neg (Nat.not_le.mpr hroom)

theorem lookup_handleSend_ne (payload : List UInt8) (ext : DataExtHeader)
    (hne : ext.jettyDst ≠ d) :
    (handleSend h payload ext).1.jettyTable.lookup d = h.jettyTable.lookup d := by
  unfold handleSend
  cases h.jettyTable.lookup ext.jettyDst with
  | none => rfl
  | some target =>
    dsimp only
    cases target.popRecv with
    | none => rfl
    | some popped =>
      dsimp only
      cases popped.2.pushCqe _ with
      | error e => exact lookup_storeJetty_ne hne _
      | ok target => exact lookup_storeJetty_ne hne _

theorem send_flows (hd : h.jettyTable.lookup d = some jetty) (payload : List UInt8)
    (ext : DataExtHeader) (hroom : RoomFor d h (.send payload ext)) :
    Flows d jetty (h.jettyStep (.send payload ext)) := by
  by_cases hdst : ext.jettyDst = d
  · have hlookup : h.jettyTable.lookup ext.jettyDst = some jetty := by rw [hdst, hd]
    cases hjfr : jetty.jfr with
    | nil =>
      have hhost : (handleSend h payload ext).1 = h := by
        simp [handleSend, hlookup, Jetty.popRecv, hjfr]
      refine flows_of_lookup ?_ elsewhere_nil
      rw [Host.jettyStep, hhost, hd]
    | cons buf rest =>
      -- the buffer is taken and its completion fits
      have hspace := hroom hdst jetty hd (by rw [hjfr]; exact List.cons_ne_nil _ _)
      let cqe : Cqe := ⟨buf.wrId, ubOk, ext.imm,
        UInt32.ofNat (min payload.length buf.buf.length), ext.jettyDst, .send⟩
      have hpush : ({ jetty with jfr := rest } : Jetty).pushCqe cqe =
          .ok { jetty with jfr := rest, jfc := jetty.jfc ++ [cqe] } :=
        pushCqe_of_room { jetty with jfr := rest } hspace cqe
      have hhost : (handleSend h payload ext).1 =
          h.storeJetty { jetty with jfr := rest, jfc := jetty.jfc ++ [cqe] } ext.jettyDst := by
        simp only [handleSend, hlookup, Jetty.popRecv, hjfr]
        simp only [cqe] at hpush
        rw [hpush]
        rfl
      refine ⟨{ jetty with jfr := rest, jfc := jetty.jfc ++ [cqe] }, [buf], [cqe], ?_, ?_⟩
      · rw [Host.jettyStep, hhost, hdst]
        exact lookup_storeJetty _
      · exact ⟨by simp [accepted, Host.jettyStep, hjfr], by simp [polled, Host.jettyStep],
          .cons rfl .nil, rfl⟩
  · exact flows_of_lookup ((lookup_handleSend_ne payload ext hdst).trans hd) elsewhere_nil

theorem lookup_notifyJetty_ne (jettyTable : JettyTable) (ext : DataExtHeader) (byteLen : ℕ)
    (hne : ext.jettyDst ≠ d) :
    (notifyJetty jettyTable ext byteLen).1.lookup d = jettyTable.lookup d := by
  unfold notifyJetty
  cases jettyTable.lookup ext.jettyDst with
  | none => rfl
  | some target =>
    dsimp only
    cases target.pushCqe _ with
    | error e => rfl
    | ok target => exact AList.lookup_insert_ne hne.symm

theorem handleWriteImm_cases (h : Host) (payload : List UInt8) (ext : DataExtHeader) :
    ((handleWriteImm h payload ext).access = none ∧
      (handleWriteImm h payload ext).host.jettyTable = h.jettyTable) ∨
    ((handleWriteImm h payload ext).access.isSome = true ∧
      (handleWriteImm h payload ext).host.jettyTable =
        (notifyJetty h.jettyTable ext payload.length).1) := by
  unfold handleWriteImm
  cases acquire h.mrTable ext.mrHandle .writeImm with
  | error r => exact Or.inl ⟨rfl, rfl⟩
  | ok acquired =>
    dsimp only
    cases h.memory.write acquired.1.device (deviceOffset acquired.1 ext.ubAddr) payload with
    | error e => exact Or.inl ⟨rfl, rfl⟩
    | ok written => exact Or.inr ⟨rfl, rfl⟩

theorem writeImm_flows (hd : h.jettyTable.lookup d = some jetty) (payload : List UInt8)
    (ext : DataExtHeader) (hroom : RoomFor d h (.writeImm payload ext)) :
    Flows d jetty (h.jettyStep (.writeImm payload ext)) := by
  rcases handleWriteImm_cases h payload ext with ⟨haccess, htable⟩ | ⟨haccess, htable⟩
  · refine flows_of_lookup ?_ ?_
    · rw [Host.jettyStep, htable, hd]
    · rw [Host.jettyStep, haccess]
      exact elsewhere_nil
  · by_cases hdst : ext.jettyDst = d
    · let cqe : Cqe :=
        ⟨0, ubOk, ext.imm, UInt32.ofNat payload.length, ext.jettyDst, .writeImm⟩
      have hnotify : (notifyJetty h.jettyTable ext payload.length).1 =
          h.jettyTable.store { jetty with jfc := jetty.jfc ++ [cqe] } ext.jettyDst := by
        have hlookup : h.jettyTable.lookup ext.jettyDst = some jetty := by rw [hdst, hd]
        simp only [notifyJetty, hlookup]
        rw [pushCqe_of_room jetty (hroom hdst jetty hd)]
      refine ⟨{ jetty with jfc := jetty.jfc ++ [cqe] }, [], [cqe], ?_, ?_⟩
      · rw [Host.jettyStep, htable, hnotify, hdst]
        exact AList.lookup_insert _
      · rw [Host.jettyStep, haccess, if_pos rfl]
        exact ⟨by simp [accepted, JettyEvent.acceptedOn], by simp [polled, JettyEvent.polledOn],
          .nil, by simp [owed, JettyEvent.owedOn, hdst, Cqe.isOf, cqe]⟩
    · refine flows_of_lookup ?_ ?_
      · rw [Host.jettyStep, htable, lookup_notifyJetty_ne _ _ _ hdst, hd]
      · rw [Host.jettyStep, haccess, if_pos rfl]
        exact elsewhere_executed hdst _ _

theorem jettyStep_flows (hd : h.jettyTable.lookup d = some jetty) (i : JettyInput)
    (hroom : RoomFor d h i) : Flows d jetty (h.jettyStep i) := by
  cases i with
  | postRecv handle buf wrId => exact postRecv_flows hd buf wrId
  | send payload ext => exact send_flows hd payload ext hroom
  | writeImm payload ext => exact writeImm_flows hd payload ext hroom
  | pollCqe handle => exact pollCqe_flows hd

end

/-! ## Whole runs -/

/-- While frames that need a completion find room for it, no buffer and no
immediate write of a fresh Jetty goes without its completion. -/
theorem completions_accounted {h : Host} {d : UInt32} {jetty : Jetty}
    (hopen : h.jettyTable.lookup d = some jetty) (hjfr : jetty.jfr = []) (hjfc : jetty.jfc = [])
    {inputs : List JettyInput}
    (hroom : Runs.Meets Host.jettyStep (fun h _ i => RoomFor d h i) h [] inputs) :
    ∃ jetty', (Runs.run Host.jettyStep h inputs).1.jettyTable.lookup d = some jetty' ∧
      Accounted d (Runs.run Host.jettyStep h inputs).2 jetty' := by
  refine Runs.run_invariant (I := fun h log => ∃ jetty, h.jettyTable.lookup d = some jetty ∧
    Accounted d log jetty) ?_ ⟨jetty, hopen, accounted_fresh hjfr hjfc⟩ hroom
  rintro h log i ⟨jetty, hd, haccounted⟩ hi
  obtain ⟨jetty', taken, new, hlookup, hflow⟩ := jettyStep_flows hd i hi
  exact ⟨jetty', hlookup, haccounted.flow hflow⟩

/-- A host with a writable region of eight bytes and one Jetty. -/
def oneJettyHost (jfcDepth : UInt32) : Host where
  mrTable :=
    { MrTable.new 1 1 with
      entries :=
        AList.insert 1 ⟨1, 0, 0, 8, .write, UbAddr.new 1 1 0 0 0, UbAddr.offset_origin⟩ ∅
      cells := fun _ => ⟨.active, 0⟩ }
  memory := fun _ => ⟨.memory, 0, List.replicate 8 0⟩
  jettyTable := (JettyTable.new 1 4 jfcDepth).create.1

/-- The header of a message to that Jetty, or of an immediate write. -/
def toJetty (verb : Verb) (imm : Option UInt64) : DataExtHeader :=
  ⟨verb, ExtFlags.empty, 1, 0, 1, 0, 0, 0, 1, UbAddr.new 1 1 0 0 0, imm⟩

/-- A buffer is posted, a message and an immediate write arrive, one completion
is polled. -/
def pollingRun : List JettyInput :=
  [.postRecv 1 [0, 0] 5, .send [7, 8] (toJetty .send none),
    .writeImm [9] (toJetty .writeImm (some 3)), .pollCqe 1]

theorem completions_accounted_polling :
    ∃ jetty, (Runs.run Host.jettyStep (oneJettyHost 2) pollingRun).1.jettyTable.lookup 1 =
        some jetty ∧
      Accounted 1 (Runs.run Host.jettyStep (oneJettyHost 2) pollingRun).2 jetty := by
  have hopen : (oneJettyHost 2).jettyTable.lookup 1 = some ⟨1, 1, [], [], 4, 2⟩ := rfl
  apply completions_accounted hopen rfl rfl
  refine ⟨trivial, ?_, ?_, trivial, trivial⟩
  · simp only [RoomFor]
    decide
  · simp only [RoomFor]
    decide

/-- Two messages arrive for two posted buffers and a queue with room for one
completion. -/
def crowdedRun : List JettyInput :=
  [.postRecv 1 [0] 5, .postRecv 1 [0] 6, .send [7] (toJetty .send none),
    .send [8] (toJetty .send none)]

/-- The second buffer is gone and has no completion. -/
theorem full_queue_loses_completion :
    ∃ jetty, (Runs.run Host.jettyStep (oneJettyHost 1) crowdedRun).1.jettyTable.lookup 1 =
        some jetty ∧
      ¬ Accounted 1 (Runs.run Host.jettyStep (oneJettyHost 1) crowdedRun).2 jetty := by
  refine ⟨⟨1, 1, [], [⟨5, ubOk, none, 1, 1, .send⟩], 4, 1⟩, by decide, fun h => ?_⟩
  obtain ⟨⟨consumed, haccepted, hsends⟩, -⟩ := h
  have hconsumed : consumed = [⟨[0], 5⟩, ⟨[0], 6⟩] := by
    rw [List.append_nil] at haccepted
    rw [← haccepted]
    decide
  subst hconsumed
  exact absurd hsends.length_eq (by decide)

/-! ## The body of a message -/

structure JettyInfo where
  handle : UInt32
  nodeId : UInt16
  jfrDepth : UInt32
  jfcDepth : UInt32
  cqeCount : ℕ
  jfrCount : ℕ
  deriving DecidableEq, Repr

def Jetty.info (jetty : Jetty) : JettyInfo :=
  ⟨jetty.handle, jetty.nodeId, jetty.jfrDepth, jetty.jfcDepth, jetty.jfc.length,
    jetty.jfr.length⟩

/-- What the application can ask a Jetty that it looked up. -/
inductive JettyCall
  | postRecv (buf : List UInt8) (wrId : UInt64)
  | popRecv
  | pushCqe (cqe : Cqe)
  | pollCqe
  | cqeCount
  | addr
  deriving DecidableEq, Repr

inductive JettyAnswer
  | done (result : Except UbError Unit)
  | buffer (popped : Option RecvBuffer)
  | completion (polled : Option Cqe)
  | count (n : ℕ)
  | addr (nodeId : UInt16) (jettyId : UInt32)
  deriving DecidableEq, Repr

def Jetty.call (jetty : Jetty) : JettyCall → Jetty × JettyAnswer
  | .postRecv buf wrId =>
    match jetty.postRecv buf wrId with
    | .error e => (jetty, .done (.error e))
    | .ok jetty => (jetty, .done (.ok ()))
  | .popRecv =>
    match jetty.popRecv with
    | none => (jetty, .buffer none)
    | some (buf, jetty) => (jetty, .buffer (some buf))
  | .pushCqe cqe =>
    match jetty.pushCqe cqe with
    | .error e => (jetty, .done (.error e))
    | .ok jetty => (jetty, .done (.ok ()))
  | .pollCqe =>
    match jetty.pollCqe with
    | none => (jetty, .completion none)
    | some (cqe, jetty) => (jetty, .completion (some cqe))
  | .cqeCount => (jetty, .count jetty.jfc.length)
  | .addr => (jetty, .addr jetty.nodeId jetty.handle)

/-- The application uses the table or one of its Jettys. -/
inductive TableCall
  | create
  | list
  | jetty (handle : UInt32) (call : JettyCall)
  deriving DecidableEq, Repr

inductive TableAnswer
  | created (handle : UInt32)
  | listed (infos : List JettyInfo)
  | missing (handle : UInt32)
  | jetty (handle : UInt32) (answer : JettyAnswer)
  deriving DecidableEq, Repr

def JettyTable.call (t : JettyTable) : TableCall → JettyTable × List TableAnswer
  | .create => (t.create.1, [.created t.create.2])
  | .list => (t, [.listed (t.entries.entries.map fun e => Jetty.info e.2)])
  | .jetty handle call =>
    match t.lookup handle with
    | none => (t, [.missing handle])
    | some jetty =>
      let (jetty, answer) := Jetty.call jetty call
      (t.store jetty handle, [.jetty handle answer])

/-- Some calls of the application are answered differently after the one message
and after the other. -/
def Distinguishable (h : Host) (ext : DataExtHeader) (p q : List UInt8) : Prop :=
  ∃ calls, (Runs.run JettyTable.call (handleSend h p ext).1.jettyTable calls).2 ≠
    (Runs.run JettyTable.call (handleSend h q ext).1.jettyTable calls).2

/-- A message leaves no trace but its length. -/
theorem handleSend_eq_of_length_eq (h : Host) (ext : DataExtHeader) {p q : List UInt8}
    (hlen : p.length = q.length) : handleSend h p ext = handleSend h q ext := by
  unfold handleSend
  rw [hlen]

/-- Two messages of one length leave the same host, so that no sequence of calls
tells them apart. -/
theorem message_body_never_observable (h : Host) (ext : DataExtHeader) {p q : List UInt8}
    (hlen : p.length = q.length) :
    (handleSend h p ext).1 = (handleSend h q ext).1 ∧ ¬ Distinguishable h ext p q := by
  have hsame := handleSend_eq_of_length_eq h ext hlen
  refine ⟨by rw [hsame], ?_⟩
  rintro ⟨calls, hdiffer⟩
  rw [hsame] at hdiffer
  exact hdiffer rfl

/-- A host whose Jetty has posted a buffer of two bytes. -/
def waitingHost : Host := ((oneJettyHost 2).jettyStep (.postRecv 1 [0, 0] 5)).1

theorem message_body_never_observable_waiting :
    (handleSend waitingHost [7, 8] (toJetty .send none)).1 =
        (handleSend waitingHost [9, 9] (toJetty .send none)).1 ∧
      ¬ Distinguishable waitingHost (toJetty .send none) [7, 8] [9, 9] :=
  message_body_never_observable waitingHost (toJetty .send none) rfl

/-- The buffer is taken and completed, the bytes of the message are nowhere. -/
theorem different_messages_not_distinguished :
    waitingHost.jettyTable.lookup 1 = some ⟨1, 1, [⟨[0, 0], 5⟩], [], 4, 2⟩ ∧
      (handleSend waitingHost [7, 8] (toJetty .send none)).1.jettyTable.lookup 1 =
        some ⟨1, 1, [], [⟨5, ubOk, none, 2, 1, .send⟩], 4, 2⟩ ∧
      ([7, 8] : List UInt8) ≠ [9, 9] ∧
      ¬ Distinguishable waitingHost (toJetty .send none) [7, 8] [9, 9] := by
  refine ⟨by decide, by decide, by decide, ?_⟩
  rintro ⟨calls, hdiffer⟩
  exact hdiffer rfl

end UniBus.DataPlane
