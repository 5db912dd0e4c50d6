import UniBus.DataPlane.Engine
import UniBus.Transport.Records

/-!
# At-most-once execution at a responder

A responder queues the frames that its transport hands up and dispatches them
one after another. Between dispatches, frames of any peer arrive, the node sends
frames of its own, and local verbs change its memory. The log has one event per
dispatched frame. A frame has its effect when its handler writes the device or
consumes a posted buffer.
-/
namespace UniBus.DataPlane

open Wire Transport

/-- The engine and the frames handed up to it but not dispatched yet. -/
structure Responder where
  engine : DataPlaneEngine
  inbound : List InboundFrame

inductive ResponderInput
  | arrive (f : DataFrame)
  | ack (now : Instant) (header : FrameHeader) (payload : List UInt8)
  | credit (header : FrameHeader) (payload : List UInt8)
  | send (now : Instant) (node : UInt16) (frame : List UInt8) (isFireAndForget : Bool)
      (opaqueId : UInt64)
  | localChange (change : Host → Host)
  | dispatch (now : Instant)

structure DispatchEvent where
  frame : InboundFrame
  /-- The frame was run and marked as executed. -/
  executed : Bool
  effect : Bool
  deriving DecidableEq, Repr

/-- A device write, a compare-and-swap, a fetch-and-add or a consumed buffer. -/
def Dispatched.effect (d : Dispatched) : Bool :=
  d.consumed || d.access.any fun a => a.kind != .read

namespace Responder

def withTransport (r : Responder) (transport : TransportManager) : Responder :=
  { r with engine := { r.engine with transport } }

def step (r : Responder) : ResponderInput → Responder × List DispatchEvent
  | .arrive f =>
    let (transport, frames) := Transport.arrive r.engine.transport f
    ({ r.withTransport transport with inbound := r.inbound ++ frames }, [])
  | .ack now header payload =>
    (r.withTransport (r.engine.transport.handleAckFrame now header payload), [])
  | .credit header payload =>
    (r.withTransport (r.engine.transport.handleCreditFrame header payload), [])
  | .send now node frame isFireAndForget opaqueId =>
    (r.withTransport (r.engine.transport.send now node frame isFireAndForget opaqueId).1, [])
  | .localChange change => ({ r with engine := { r.engine with host := change r.engine.host } }, [])
  | .dispatch now =>
    match r.inbound with
    | [] => (r, [])
    | f :: rest =>
      let d := r.engine.handleVerbFrame now f
      (⟨d.engine, rest⟩, [⟨f, d.executed, d.effect⟩])

end Responder

/-- The numbers of a peer's frames whose event has the flag, in order. -/
def seqsWhere (flag : DispatchEvent → Bool) (peer : UInt16) (log : List DispatchEvent) :
    List ℕ :=
  (log.filter fun ev => ev.frame.header.srcNode = peer ∧ flag ev = true).map
    fun ev => ev.frame.seq

def executedSeqs (peer : UInt16) (log : List DispatchEvent) : List ℕ :=
  seqsWhere DispatchEvent.executed peer log

def effectSeqs (peer : UInt16) (log : List DispatchEvent) : List ℕ :=
  seqsWhere DispatchEvent.effect peer log

/-- No sequence number of the peer has its effect twice. -/
def AtMostOnce (peer : UInt16) (log : List DispatchEvent) : Prop := (effectSeqs peer log).Nodup

/-- Each sequence number of the peer always carries the same frame. -/
def Carried (peer : UInt16) (carrier : ℕ → DataFrame) : ResponderInput → Prop
  | .arrive f => f.header.srcNode = peer → f.seq ≠ 0 ∧ f = carrier f.seq
  | _ => True

/-- When a request of the peer is dispatched again after its execution, fewer
than 1024 other frames of the peer were executed since. -/
def RecordKept (peer : UInt16) (r : Responder) (log : List DispatchEvent) :
    ResponderInput → Prop
  | .dispatch _ => ∀ f rest, r.inbound = f :: rest → f.header.srcNode = peer →
      isRequestVerb f.ext.verb = true → f.seq ∈ executedSeqs peer log →
      f.seq ∈ (executedSeqs peer log).rtake 1024
  | _ => True

section
variable {flag : DispatchEvent → Bool} {peer : UInt16} {log : List DispatchEvent}

theorem seqsWhere_concat (ev : DispatchEvent) :
    seqsWhere flag peer (log ++ [ev]) = seqsWhere flag peer log ++
      if ev.frame.header.srcNode = peer ∧ flag ev = true then [ev.frame.seq] else [] := by
  unfold seqsWhere
  rw [List.filter_append, List.map_append]
  split_ifs with h <;> simp [h]

theorem mem_seqsWhere {seq : ℕ} :
    seq ∈ seqsWhere flag peer log ↔ ∃ ev ∈ log, ev.frame.header.srcNode = peer ∧
      flag ev = true ∧ ev.frame.seq = seq := by
  simp [seqsWhere, and_assoc]

theorem nodup_seqsWhere_concat {ev : DispatchEvent} (h : (seqsWhere flag peer log).Nodup)
    (hnew : ev.frame.header.srcNode = peer → flag ev = true →
      ev.frame.seq ∉ seqsWhere flag peer log) :
    (seqsWhere flag peer (log ++ [ev])).Nodup := by
  rw [seqsWhere_concat]
  split_ifs with hev
  · exact List.nodup_append.mpr ⟨h, List.nodup_singleton _, fun s hs t ht heq =>
      hnew hev.1 hev.2 (List.mem_singleton.mp ht ▸ heq ▸ hs)⟩
  · rwa [List.append_nil]

end

/-! ## What one dispatch does -/

/-- The verbs whose frames are marked as executed. -/
def isMarkedVerb : Verb → Bool
  | .write | .writeImm | .atomicCas | .atomicFaa => true
  | _ => false

section
variable (e : DataPlaneEngine) (now : Instant) (peer node : UInt16)

theorem respond_keeps (ext : DataExtHeader) (verb : Verb)
    (result : Except UbStatus (List UInt8)) :
    Keeps peer e.transport (e.respond now node ext verb result).1.transport := by
  cases result with
  | error status => exact Keeps.sendFrameToPeer _ _ _
  | ok data => exact (Keeps.readCacheInsert _ _ _ _ _).trans (Keeps.sendFrameToPeer _ _ _)

theorem resendCached_keeps (opaqueId : UInt64) :
    Keeps peer e.transport (e.resendCached now node opaqueId).1.transport := by
  have hget : Keeps peer e.transport (e.transport.readCacheGet now node (node, opaqueId)).1 :=
    Keeps.readCacheGet _ _ _ _
  unfold DataPlaneEngine.resendCached
  dsimp only
  split
  · exact hget.trans (Keeps.sendFrameToPeer _ _ _)
  · exact hget

/-- A dispatch that did not execute a marked verb: the peer's session keeps its
receiving side, and only a Send had an effect. -/
structure Passed (e : DataPlaneEngine) (peer : UInt16) (f : InboundFrame) (d : Dispatched) :
    Prop where
  executed : d.executed = false
  keeps : Keeps peer e.transport d.engine.transport
  send_of_effect : d.effect = true → f.ext.verb = .send

/-- A dispatch that executed a frame without a record and marked it. -/
structure Executed (e : DataPlaneEngine) (peer : UInt16) (f : InboundFrame) (d : Dispatched) :
    Prop where
  executed : d.executed = true
  verb : isMarkedVerb f.ext.verb = true
  unmarked : e.transport.isExecuted f.header.srcNode f.seq = false
  marks : ∃ m, Keeps peer e.transport m ∧
    d.engine.transport = m.markExecuted f.header.srcNode f.seq

variable {f : InboundFrame}

theorem Executed.live {e : DataPlaneEngine} {peer : UInt16} {d : Dispatched}
    (hd : Executed e peer f d) (hpeer : f.header.srcNode = peer) {session : ReliableSession}
    (hs : LiveSession e.transport peer session) {seqs : List ℕ}
    (hrecords : session.executionRecords = recordsOf seqs) :
    ∃ session', LiveSession d.engine.transport peer session' ∧
      session'.dedup = session.dedup ∧
      session'.executionRecords = recordsOf (seqs ++ [f.seq]) := by
  obtain ⟨m, hkeeps, hmark⟩ := hd.marks
  obtain ⟨s, hs', hsame⟩ := hkeeps session hs
  have hunmarked := hd.unmarked
  rw [hpeer, hs.isExecuted] at hunmarked
  have hnew : s.isExecuted f.seq = false := by
    rw [← hunmarked, ReliableSession.isExecuted, hsame.executionRecords]
    rfl
  refine ⟨s.markExecuted f.seq, ?_, ?_, ?_⟩
  · rw [hmark, hpeer]
    exact hs'.modifySession (by simp)
  · rw [ReliableSession.markExecuted_dedup, hsame.dedup]
  · exact ReliableSession.executionRecords_markExecuted
      (hsame.executionRecords.trans hrecords) hnew

theorem dispatchWrite_cases (hverb : isMarkedVerb f.ext.verb = true)
    (run : Host → Handled (Option String)) :
    Passed e peer f (e.dispatchWrite f.header.srcNode f.seq run) ∨
      Executed e peer f (e.dispatchWrite f.header.srcNode f.seq run) := by
  unfold DataPlaneEngine.dispatchWrite
  cases hmarked : e.transport.isExecuted f.header.srcNode f.seq with
  | true =>
    rw [if_pos rfl]
    exact Or.inl ⟨rfl, Keeps.refl _, fun h => by cases h⟩
  | false =>
    rw [if_neg Bool.false_ne_true]
    exact Or.inr ⟨rfl, hverb, hmarked, e.transport, Keeps.refl _, rfl⟩

theorem dispatchAtomic_cases (hverb : isMarkedVerb f.ext.verb = true) (respVerb : Verb)
    (run : Host → Handled (Except UbStatus (List UInt8))) :
    Passed e peer f (e.dispatchAtomic now f.header.srcNode f.seq f.ext respVerb run) ∨
      Executed e peer f (e.dispatchAtomic now f.header.srcNode f.seq f.ext respVerb run) := by
  unfold DataPlaneEngine.dispatchAtomic
  cases hmarked : e.transport.isExecuted f.header.srcNode f.seq with
  | true =>
    rw [if_pos rfl]
    exact Or.inl ⟨rfl, resendCached_keeps e now peer _ _, fun h => by cases h⟩
  | false =>
    rw [if_neg Bool.false_ne_true]
    have hrespond := respond_keeps { e with host := (run e.host).host } now peer
      f.header.srcNode f.ext respVerb (run e.host).result
    exact Or.inr ⟨rfl, hverb, hmarked, _, hrespond, rfl⟩

theorem handleReadReq_access (h : Host) (payload : List UInt8) (ext : DataExtHeader) :
    ∀ a ∈ (handleReadReq h payload ext).access, a.kind = .read := by
  intro a ha
  unfold handleReadReq at ha
  split at ha
  · cases ha
  · rename_i entry t _
    cases hread : h.memory.read entry.device (deviceOffset entry ext.ubAddr)
        (readLen payload) with
    | error err =>
      simp only [hread] at ha
      cases ha
    | ok result =>
      simp only [hread] at ha
      cases ha
      unfold Memory.read at hread
      cases hdevice : (h.memory entry.device).read (deviceOffset entry ext.ubAddr)
          (readLen payload) with
      | error err =>
        rw [hdevice] at hread
        cases hread
      | ok bytes =>
        rw [hdevice] at hread
        cases hread
        rfl

theorem dispatchReadReq_passed :
    Passed e peer f (e.dispatchReadReq now f.header.srcNode f.payload f.ext) := by
  have hresend := resendCached_keeps e now peer f.header.srcNode f.ext.opaqueId
  unfold DataPlaneEngine.dispatchReadReq
  split
  · rename_i e' frame heq
    rw [heq] at hresend
    exact ⟨rfl, hresend, fun h => by cases h⟩
  · rename_i e' heq
    rw [heq] at hresend
    have hread := handleReadReq_access e'.host f.payload f.ext
    have hrespond := respond_keeps
      { e' with host := (handleReadReq e'.host f.payload f.ext).host } now peer
      f.header.srcNode f.ext .readResp (handleReadReq e'.host f.payload f.ext).result
    refine ⟨rfl, hresend.trans hrespond, ?_⟩
    intro heffect
    obtain ⟨a, ha, hkind⟩ : ∃ a ∈ (handleReadReq e'.host f.payload f.ext).access,
        (a.kind != .read) = true := by
      simpa [Dispatched.effect, Option.any_eq_true] using heffect
    rw [hread a ha] at hkind
    cases hkind

theorem completePendingRequest_passed :
    Passed e peer f (e.completePendingRequest f.ext f.payload f.header.srcNode) := by
  unfold DataPlaneEngine.completePendingRequest
  split
  · exact ⟨rfl, Keeps.refl _, fun h => by cases h⟩
  · exact ⟨rfl, Keeps.completeRequest _ _ _, fun h => by cases h⟩

theorem handleVerbFrame_cases (f : InboundFrame) :
    Passed e peer f (e.handleVerbFrame now f) ∨ Executed e peer f (e.handleVerbFrame now f) := by
  unfold DataPlaneEngine.handleVerbFrame
  dsimp only
  cases hv : f.ext.verb with
  | write => exact dispatchWrite_cases e peer (by rw [hv]; rfl) _
  | writeImm => exact dispatchWrite_cases e peer (by rw [hv]; rfl) _
  | readReq => exact Or.inl (dispatchReadReq_passed e now peer)
  | atomicCas => exact dispatchAtomic_cases e now peer (by rw [hv]; rfl) _ _
  | atomicFaa => exact dispatchAtomic_cases e now peer (by rw [hv]; rfl) _ _
  | send => exact Or.inl ⟨rfl, Keeps.refl _, fun _ => hv⟩
  | readResp | atomicCasResp | atomicFaaResp =>
    exact Or.inl (completePendingRequest_passed e peer)

end

/-! ## The invariant -/

/-- The records are those of the last 1024 executed frames, the queue holds
faithful copies, and nothing was executed or had its effect twice. -/
structure ExecutedOnce (peer : UInt16) (carrier : ℕ → DataFrame) (r : Responder)
    (log : List DispatchEvent) : Prop where
  ordered : Ordered peer r.engine.transport (log.map DispatchEvent.frame ++ r.inbound)
  records : ∃ session, LiveSession r.engine.transport peer session ∧
    session.executionRecords = recordsOf (executedSeqs peer log)
  carried : ∀ f ∈ log.map DispatchEvent.frame ++ r.inbound, f.header.srcNode = peer →
    f.seq ≠ 0 ∧ f = (carrier f.seq).inbound
  executed_of_effect : ∀ ev ∈ log, ev.effect = true →
    ev.executed = true ∨ ev.frame.ext.verb = .send
  executed_nodup : (executedSeqs peer log).Nodup
  effect_nodup : (effectSeqs peer log).Nodup

namespace ExecutedOnce

variable {peer : UInt16} {carrier : ℕ → DataFrame} {r : Responder} {log : List DispatchEvent}
  {f : InboundFrame} {rest : List InboundFrame}

/-- Two dispatched or queued frames of the peer with one number are one frame. -/
theorem eq_of_seq_eq (h : ExecutedOnce peer carrier r log) {f g : InboundFrame}
    (hf : f ∈ log.map DispatchEvent.frame ++ r.inbound)
    (hg : g ∈ log.map DispatchEvent.frame ++ r.inbound)
    (hfp : f.header.srcNode = peer) (hgp : g.header.srcNode = peer) (hseq : f.seq = g.seq) :
    f = g := by
  rw [(h.carried f hf hfp).2, (h.carried g hg hgp).2, hseq]

theorem mem_head (hq : r.inbound = f :: rest) :
    f ∈ log.map DispatchEvent.frame ++ r.inbound := by
  simp [hq]

theorem mem_logged {ev : DispatchEvent} (hev : ev ∈ log) :
    ev.frame ∈ log.map DispatchEvent.frame ++ r.inbound :=
  List.mem_append_left _ (List.mem_map_of_mem hev)

section
variable (h : ExecutedOnce peer carrier r log)
include h

/-- A fire-and-forget frame at the head of the queue was not dispatched before. -/
theorem not_dispatched (hq : r.inbound = f :: rest) (hpeer : f.header.srcNode = peer)
    (hverb : isFireAndForgetVerb f.ext.verb = true) {ev : DispatchEvent} (hev : ev ∈ log)
    (hevp : ev.frame.header.srcNode = peer) :
    ev.frame.seq ≠ f.seq := by
  intro hseq
  have heq := h.eq_of_seq_eq (mem_logged hev) (mem_head hq) hevp hpeer hseq
  have hpos := (h.carried f (mem_head hq) hpeer).1
  have hmem : ∀ l : List InboundFrame, f ∈ l → f.seq ∈ fireAndForgetSeqs peer l := by
    intro l hl
    simp only [fireAndForgetSeqs, handedFrames, List.mem_map, List.mem_filter]
    exact ⟨f, ⟨⟨hl, decide_eq_true ⟨hpeer, hpos⟩⟩, hverb⟩, rfl⟩
  have hinc := h.ordered.increasing
  rw [fireAndForgetSeqs_append, List.pairwise_append] at hinc
  have hlogged : f ∈ log.map DispatchEvent.frame := heq ▸ List.mem_map_of_mem hev
  exact absurd (hinc.2.2 _ (hmem _ hlogged) _ (hmem _ (by simp [hq]))) (lt_irrefl _)

theorem notMem_executedSeqs (hq : r.inbound = f :: rest) (hpeer : f.header.srcNode = peer)
    {now : Instant} (hkept : RecordKept peer r log (.dispatch now)) {d : Dispatched}
    (hd : Executed r.engine peer f d) : f.seq ∉ executedSeqs peer log := by
  intro hmem
  have hverb := hd.verb
  cases hff : isFireAndForgetVerb f.ext.verb with
  | true =>
    obtain ⟨ev, hev, hevp, -, hseq⟩ := mem_seqsWhere.mp hmem
    exact h.not_dispatched hq hpeer hff hev hevp hseq
  | false =>
    -- a request is run again only when its record is gone
    have hrequest : isRequestVerb f.ext.verb = true := by
      revert hverb hff
      cases f.ext.verb <;> simp [isMarkedVerb, isFireAndForgetVerb, isRequestVerb]
    obtain ⟨session, hs, hrecords⟩ := h.records
    have hunmarked := hd.unmarked
    rw [hpeer, hs.isExecuted] at hunmarked
    have hrecorded := (ReliableSession.isExecuted_recordsOf hrecords f.seq).mpr
      (hkept f rest hq hpeer hrequest hmem)
    rw [hunmarked] at hrecorded
    cases hrecorded

theorem notMem_effectSeqs (hq : r.inbound = f :: rest) (hpeer : f.header.srcNode = peer)
    {now : Instant} (hkept : RecordKept peer r log (.dispatch now)) {d : Dispatched}
    (hd : Passed r.engine peer f d ∨ Executed r.engine peer f d) (heffect : d.effect = true) :
    f.seq ∉ effectSeqs peer log := by
  intro hmem
  obtain ⟨ev, hev, hevp, heveff, hseq⟩ := mem_seqsWhere.mp hmem
  rcases hd with hpassed | hexec
  · have hsend := hpassed.send_of_effect heffect
    exact h.not_dispatched hq hpeer (by rw [hsend]; rfl) hev hevp hseq
  · have heq := h.eq_of_seq_eq (mem_logged hev) (mem_head hq) hevp hpeer hseq
    rcases h.executed_of_effect ev hev heveff with hexecuted | hsend
    · exact h.notMem_executedSeqs hq hpeer hkept hexec
        (mem_seqsWhere.mpr ⟨ev, hev, hevp, hexecuted, hseq⟩)
    · have hverb := hexec.verb
      rw [← heq, hsend] at hverb
      cases hverb

theorem withTransport {m : TransportManager} (hkeeps : Keeps peer r.engine.transport m) :
    ExecutedOnce peer carrier (r.withTransport m) log := by
  obtain ⟨session, hs, hrecords⟩ := h.records
  obtain ⟨session', hs', hsame⟩ := hkeeps session hs
  exact ⟨h.ordered.of_dedup_eq hs hs' hsame.dedup,
    ⟨session', hs', hsame.executionRecords.trans hrecords⟩, h.carried, h.executed_of_effect,
    h.executed_nodup, h.effect_nodup⟩

theorem arrive {f : DataFrame} (hf : Carried peer carrier (.arrive f)) :
    ExecutedOnce peer carrier (r.step (.arrive f)).1 log := by
  obtain ⟨session, hs, hrecords⟩ := h.records
  obtain ⟨session', hs', hrecords'⟩ := hs.arrive f
  refine ⟨?_, ⟨session', hs', hrecords'.trans hrecords⟩, ?_, h.executed_of_effect,
    h.executed_nodup, h.effect_nodup⟩
  · have hordered := h.ordered.arrive f
    rw [List.append_assoc] at hordered
    exact hordered
  · intro g hg hpeer
    rcases List.mem_append.mp hg with hold | hnew
    · exact h.carried g (List.mem_append_left _ hold) hpeer
    · rcases List.mem_append.mp hnew with hqueued | harrived
      · exact h.carried g (List.mem_append_right _ hqueued) hpeer
      · obtain rfl := mem_arrive harrived
        obtain ⟨hpos, heq⟩ := hf hpeer
        exact ⟨hpos, congrArg DataFrame.inbound heq⟩

theorem records_dispatch {d : Dispatched}
    (hd : Passed r.engine peer f d ∨ Executed r.engine peer f d) :
    ∃ session session', LiveSession r.engine.transport peer session ∧
      LiveSession d.engine.transport peer session' ∧ session'.dedup = session.dedup ∧
      session'.executionRecords =
        recordsOf (executedSeqs peer (log ++ [⟨f, d.executed, d.effect⟩])) := by
  obtain ⟨session, hs, hrecords⟩ := h.records
  rcases hd with hpassed | hexec
  · obtain ⟨session', hs', hsame⟩ := hpassed.keeps session hs
    refine ⟨session, session', hs, hs', hsame.dedup, ?_⟩
    rw [hsame.executionRecords, hrecords, executedSeqs, executedSeqs, seqsWhere_concat,
      if_neg (by simp [hpassed.executed]), List.append_nil]
  · rw [executedSeqs, seqsWhere_concat]
    by_cases hpeer : f.header.srcNode = peer
    · obtain ⟨session', hs', hdedup, hrecords'⟩ := hexec.live hpeer hs hrecords
      rw [if_pos ⟨hpeer, hexec.executed⟩]
      exact ⟨session, session', hs, hs', hdedup, hrecords'⟩
    · obtain ⟨m, hkeeps, hmark⟩ := hexec.marks
      obtain ⟨session', hs', hsame⟩ := hkeeps session hs
      rw [hmark, if_neg fun hev => hpeer hev.1, List.append_nil]
      exact ⟨session, session', hs, hs'.modifySession_ne hpeer _, hsame.dedup,
        hsame.executionRecords.trans hrecords⟩

theorem dispatch (now : Instant) (hkept : RecordKept peer r log (.dispatch now)) :
    ExecutedOnce peer carrier (r.step (.dispatch now)).1
      (log ++ (r.step (.dispatch now)).2) := by
  cases hq : r.inbound with
  | nil => simpa [Responder.step, hq] using h
  | cons f rest =>
    have hd := handleVerbFrame_cases r.engine now peer f
    have hstep : r.step (.dispatch now) = (⟨(r.engine.handleVerbFrame now f).engine, rest⟩,
        [⟨f, (r.engine.handleVerbFrame now f).executed,
          (r.engine.handleVerbFrame now f).effect⟩]) := by
      simp only [Responder.step, hq]
    rw [hstep]
    generalize r.engine.handleVerbFrame now f = d at hd
    obtain ⟨session, session', hs, hs', hdedup, hrecords⟩ := h.records_dispatch hd
    have hframes : (log ++ [DispatchEvent.mk f d.executed d.effect]).map DispatchEvent.frame ++
        rest = log.map DispatchEvent.frame ++ r.inbound := by
      simp [hq]
    refine ⟨?_, ⟨session', hs', hrecords⟩, ?_, ?_, ?_, ?_⟩
    · dsimp only
      rw [hframes]
      exact h.ordered.of_dedup_eq hs hs' hdedup
    · dsimp only
      rw [hframes]
      exact h.carried
    · intro ev hev heffect
      rcases List.mem_append.mp hev with hold | hnew
      · exact h.executed_of_effect ev hold heffect
      · obtain rfl := List.mem_singleton.mp hnew
        rcases hd with hpassed | hexec
        · exact Or.inr (hpassed.send_of_effect heffect)
        · exact Or.inl hexec.executed
    · refine nodup_seqsWhere_concat h.executed_nodup fun hpeer hflag => ?_
      rcases hd with hpassed | hexec
      · exact absurd (hflag.symm.trans hpassed.executed) (by simp)
      · exact h.notMem_executedSeqs hq hpeer hkept hexec
    · refine nodup_seqsWhere_concat h.effect_nodup fun hpeer hflag => ?_
      exact h.notMem_effectSeqs hq hpeer hkept hd hflag

theorem step {i : ResponderInput} (hi : Carried peer carrier i) (hkept : RecordKept peer r log i) :
    ExecutedOnce peer carrier (r.step i).1 (log ++ (r.step i).2) := by
  cases i with
  | arrive f =>
    have harrive := h.arrive hi
    rwa [← List.append_nil log] at harrive
  | ack now header payload =>
    rw [Responder.step, List.append_nil]
    exact h.withTransport (Keeps.handleAckFrame _ _ _ _)
  | credit header payload =>
    rw [Responder.step, List.append_nil]
    exact h.withTransport (Keeps.handleCreditFrame _ _ _)
  | send now node frame isFireAndForget opaqueId =>
    rw [Responder.step, List.append_nil]
    exact h.withTransport (Keeps.send _ _ _ _ _ _)
  | localChange change =>
    rw [Responder.step, List.append_nil]
    exact ⟨h.ordered, h.records, h.carried, h.executed_of_effect, h.executed_nodup,
      h.effect_nodup⟩
  | dispatch now => exact h.dispatch now hkept

end

end ExecutedOnce

def Responder.start (engine : DataPlaneEngine) (transport : TransportManager) : Responder :=
  ⟨{ engine with transport }, []⟩

theorem executedOnce_start {m m' : TransportManager} {peer : UInt16} {epoch credits : UInt32}
    (hnew : m.createSession peer epoch credits = .ok m') (engine : DataPlaneEngine)
    (carrier : ℕ → DataFrame) : ExecutedOnce peer carrier (.start engine m') [] := by
  obtain ⟨session, hs⟩ := createSession_receiving hnew
  refine ⟨⟨⟨session, hs.toActiveSession, hs.windowSize_pos, ?_⟩, List.Pairwise.nil⟩,
    ⟨session, hs.toLiveSession, hs.records⟩, ?_, ?_, List.nodup_nil, List.nodup_nil⟩
  · intro s hmem
    cases hmem
  · intro f hmem
    cases hmem
  · intro ev hmem
    cases hmem

/-- From a new session on, if each number always carries the same frame and no
atomic request comes back after 1024 other executions, every frame of the peer
has its effect at most once. -/
theorem effects_at_most_once {m m' : TransportManager} {peer : UInt16} {epoch credits : UInt32}
    (hnew : m.createSession peer epoch credits = .ok m') (engine : DataPlaneEngine)
    {carrier : ℕ → DataFrame} {inputs : List ResponderInput}
    (hcarried : ∀ i ∈ inputs, Carried peer carrier i)
    (hkept : Runs.Meets Responder.step (RecordKept peer) (.start engine m') [] inputs) :
    AtMostOnce peer (Runs.run Responder.step (.start engine m') inputs).2 := by
  have hmeets := (Runs.meets_of_forall_mem hcarried).and hkept
  have hrun := Runs.run_invariant
    (fun r log i (h : ExecutedOnce peer carrier r log) hi => h.step hi.1 hi.2)
    (executedOnce_start hnew engine carrier) hmeets
  exact hrun.effect_nodup

theorem recordKept_of_length_le {peer : UInt16} {r : Responder} {log : List DispatchEvent}
    {i : ResponderInput} (h : (executedSeqs peer log).length ≤ 1024) :
    RecordKept peer r log i := by
  cases i with
  | dispatch now =>
    intro f rest _ _ _ hmem
    rwa [List.rtake, Nat.sub_eq_zero_of_le h, List.drop_zero]
  | arrive | ack | credit | send | localChange => trivial

/-- A node with one region of eight bytes that peers may only use atomically. -/
def counterHost : Host where
  mrTable :=
    { MrTable.new 1 1 with
      entries := AList.insert 1 ⟨1, 0, 0, 8, .atomic, UbAddr.new 1 1 0 0 0, UbAddr.offset_origin⟩ ∅
      cells := fun _ => ⟨.active, 0⟩ }
  memory := fun _ => ⟨.memory, 0, List.replicate 8 0⟩
  jettyTable := JettyTable.new 1 16 16

def counterEngine : DataPlaneEngine :=
  .new 1 counterHost MrCacheTable.new (TransportManager.new 1 ⟨200, 8⟩)

/-- Peer 2 adds one to the word of the region, as frame 1. -/
def increment : DataFrame := peerFrame 1 .atomicFaa (BigEndian.put 8 1)

/-- Later frames of the peer: writes, which the region refuses. -/
def refusedWrite (seq : ℕ) : DataFrame := peerFrame (UInt64.ofNat seq) .write []

def incrementThenWrites (seq : ℕ) : DataFrame := if seq = 1 then increment else refusedWrite seq

theorem carried_increment : Carried 2 incrementThenWrites (.arrive increment) := by
  intro _
  decide

theorem seq_refusedWrite {seq : ℕ} (h : seq < 2 ^ 64) : (refusedWrite seq).seq = seq :=
  UInt64.toNat_ofNat_of_lt' h

theorem carried_refusedWrite {seq : ℕ} (h : 1 < seq) (hmax : seq < 2 ^ 64) :
    Carried 2 incrementThenWrites (.arrive (refusedWrite seq)) := by
  intro _
  rw [seq_refusedWrite hmax, incrementThenWrites, if_neg h.ne']
  exact ⟨by omega, rfl⟩

theorem effects_at_most_once_retransmitted :
    AtMostOnce 2 (Runs.run Responder.step (.start counterEngine pairedManager)
      [.arrive increment, .dispatch 0, .arrive increment, .dispatch 0]).2 := by
  have hcarried : ∀ i ∈ [ResponderInput.arrive increment, .dispatch 0, .arrive increment,
      .dispatch 0], Carried 2 incrementThenWrites i := by
    simpa [Carried] using carried_increment
  refine effects_at_most_once createSession_pairedManager counterEngine hcarried
    ⟨trivial, ?_, trivial, ?_, trivial⟩
  all_goals exact recordKept_of_length_le (by decide)

/-! ## A request whose record was dropped -/

theorem executed_of_unmarked {e : DataPlaneEngine} {f : InboundFrame} (now : Instant)
    (peer : UInt16) (hverb : isMarkedVerb f.ext.verb = true)
    (h : e.transport.isExecuted f.header.srcNode f.seq = false) :
    Executed e peer f (e.handleVerbFrame now f) := by
  rcases handleVerbFrame_cases e now peer f with hpassed | hexec
  · have hexecuted := hpassed.executed
    revert hverb hexecuted
    cases hv : f.ext.verb <;>
      simp [isMarkedVerb, DataPlaneEngine.handleVerbFrame, DataPlaneEngine.dispatchWrite,
        DataPlaneEngine.dispatchAtomic, hv, h]
  · exact hexec

theorem Executed.receiving {e : DataPlaneEngine} {peer : UInt16} {f : InboundFrame}
    {d : Dispatched} (hd : Executed e peer f d) (hpeer : f.header.srcNode = peer) {next : ℕ}
    {seqs : List ℕ} {session : ReliableSession}
    (h : Receiving e.transport peer next seqs session) :
    ∃ session', Receiving d.engine.transport peer next (seqs ++ [f.seq]) session' := by
  obtain ⟨session', hs', hdedup, hrecords⟩ := hd.live hpeer h.toLiveSession h.records
  exact ⟨session', ⟨hs', hdedup ▸ h.windowSize_pos, hdedup ▸ h.nextExpected,
    hdedup ▸ h.refines, hrecords⟩⟩

/-- The responder has executed the frames `1, …, n` of peer 2 one by one. -/
structure Replayed (n : ℕ) (host : Host) (r : Responder) : Prop where
  inbound : r.inbound = []
  host : r.engine.host = host
  receiving : ∃ session, Receiving r.engine.transport 2 (n + 1) (List.range' 1 n) session

theorem Replayed.next {n : ℕ} {host : Host} {r : Responder} (h : Replayed n host r)
    {f : DataFrame} (hf : f.SequencedFrom 2) (hseq : f.seq = n + 1)
    (hverb : isMarkedVerb f.ext.verb = true) :
    ∃ e : DataPlaneEngine, e.host = host ∧
      e.transport.isExecuted f.header.srcNode f.seq = false ∧
      Runs.run Responder.step r [.arrive f, .dispatch 0] =
        (⟨(e.handleVerbFrame 0 f.inbound).engine, []⟩,
          [⟨f.inbound, true, (e.handleVerbFrame 0 f.inbound).effect⟩]) ∧
      ∃ session, Receiving (e.handleVerbFrame 0 f.inbound).engine.transport 2 (n + 2)
        (List.range' 1 (n + 1)) session := by
  obtain ⟨session, hreceiving⟩ := h.receiving
  obtain ⟨hout, session', hreceiving'⟩ := hreceiving.arrive_next hf hseq
  have hunmarked : (arrive r.engine.transport f).1.isExecuted f.header.srcNode f.seq = false := by
    rw [hf.1, ← Bool.not_eq_true, hreceiving'.isExecuted_iff, hseq]
    intro hmem
    have hrange := List.mem_range'_1.mp (List.mem_of_mem_drop hmem)
    omega
  have hexec := executed_of_unmarked (e := { r.engine with
    transport := (arrive r.engine.transport f).1 }) (f := f.inbound) 0 2 hverb hunmarked
  refine ⟨{ r.engine with transport := (arrive r.engine.transport f).1 }, h.host, hunmarked,
    ?_, ?_⟩
  · simp [Responder.step, Responder.withTransport, h.inbound, hout, hexec.executed]
  · have hrange : List.range' 1 n ++ [f.seq] = List.range' 1 (n + 1) := by
      rw [hseq, List.range'_1_concat, Nat.add_comm]
    have hnext := hexec.receiving hf.1 hreceiving'
    rwa [DataFrame.inbound_seq, hrange] at hnext

section
variable {e : DataPlaneEngine} {f : InboundFrame} (now : Instant)

theorem handleVerbFrame_write (hverb : f.ext.verb = .write)
    (h : e.transport.isExecuted f.header.srcNode f.seq = false) :
    (e.handleVerbFrame now f).engine.host = (handleWrite e.host f.payload f.ext).host ∧
      (e.handleVerbFrame now f).effect =
        (handleWrite e.host f.payload f.ext).access.any fun a => a.kind != .read := by
  simp [DataPlaneEngine.handleVerbFrame, DataPlaneEngine.dispatchWrite, Dispatched.effect,
    hverb, h]

theorem handleVerbFrame_atomicFaa (hverb : f.ext.verb = .atomicFaa)
    (h : e.transport.isExecuted f.header.srcNode f.seq = false) :
    (e.handleVerbFrame now f).engine.host = (handleAtomicFaa e.host f.payload f.ext).host ∧
      (e.handleVerbFrame now f).effect =
        (handleAtomicFaa e.host f.payload f.ext).access.any fun a => a.kind != .read := by
  simp [DataPlaneEngine.handleVerbFrame, DataPlaneEngine.dispatchAtomic, Dispatched.effect,
    hverb, h]

end

/-- The node after the increment. -/
def incrementedHost : Host := (handleAtomicFaa counterHost increment.payload increment.ext).host

theorem sequencedFrom_increment : increment.SequencedFrom 2 := by decide

theorem replayed_increment :
    ∃ r, Runs.run Responder.step (.start counterEngine pairedManager)
        [.arrive increment, .dispatch 0] = (r, [⟨increment.inbound, true, true⟩]) ∧
      Replayed 1 incrementedHost r := by
  have hstart : Replayed 0 counterHost (.start counterEngine pairedManager) :=
    ⟨rfl, rfl, createSession_receiving createSession_pairedManager⟩
  obtain ⟨e, hhost, hunmarked, hrun, hreceiving⟩ :=
    hstart.next sequencedFrom_increment rfl rfl
  obtain ⟨hhost', heffect⟩ := handleVerbFrame_atomicFaa (f := increment.inbound) 0 rfl hunmarked
  have hadded : (handleAtomicFaa counterHost increment.payload increment.ext).access.any
      (fun a => a.kind != .read) = true := by decide
  rw [hhost] at hhost' heffect
  rw [heffect.trans hadded] at hrun
  exact ⟨_, hrun, rfl, hhost', hreceiving⟩

theorem acquire_incrementedHost (seq : ℕ) :
    acquire incrementedHost.mrTable (refusedWrite seq).inbound.ext.mrHandle .write =
      .error (.denied .permDenied) := by
  with_unfolding_all rfl

theorem Replayed.refusedWrite {n : ℕ} {r : Responder} (h : Replayed n incrementedHost r)
    (hmax : n + 1 < 2 ^ 64) :
    ∃ r', Runs.run Responder.step r [.arrive (refusedWrite (n + 1)), .dispatch 0] =
        (r', [⟨(refusedWrite (n + 1)).inbound, true, false⟩]) ∧
      Replayed (n + 1) incrementedHost r' := by
  have hseq := seq_refusedWrite hmax
  obtain ⟨e, hhost, hunmarked, hrun, hreceiving⟩ :=
    h.next (f := DataPlane.refusedWrite (n + 1)) ⟨rfl, by omega⟩ hseq rfl
  obtain ⟨hhost', heffect⟩ := handleVerbFrame_write
    (f := (DataPlane.refusedWrite (n + 1)).inbound) 0 rfl hunmarked
  rw [hhost, handleWrite, acquire_incrementedHost] at hhost' heffect
  rw [heffect] at hrun
  exact ⟨_, hrun, rfl, hhost', hreceiving⟩

/-- The peer's writes `2, …, n + 1`, each dispatched before the next arrives. -/
def writesAfterIncrement (n : ℕ) : List ResponderInput :=
  (List.range' 2 n).flatMap fun seq => [.arrive (refusedWrite seq), .dispatch 0]

theorem replayed_writes (n : ℕ) (hmax : n + 1 < 2 ^ 64) :
    ∃ r log, Runs.run Responder.step (.start counterEngine pairedManager)
        ([.arrive increment, .dispatch 0] ++ writesAfterIncrement n) = (r, log) ∧
      Replayed (n + 1) incrementedHost r ∧ effectSeqs 2 log = [1] := by
  induction n with
  | zero =>
    obtain ⟨r, hrun, hreplayed⟩ := replayed_increment
    exact ⟨r, _, hrun, hreplayed, by decide⟩
  | succ n ih =>
    obtain ⟨r, log, hrun, hreplayed, heffects⟩ := ih (by omega)
    obtain ⟨r', hwrite, hreplayed'⟩ := hreplayed.refusedWrite (by omega)
    have hinputs : writesAfterIncrement (n + 1) =
        writesAfterIncrement n ++ [.arrive (refusedWrite (n + 1 + 1)), .dispatch 0] := by
      simp [writesAfterIncrement, List.range'_1_concat, Nat.add_comm 2 n]
    refine ⟨r', log ++ [⟨(refusedWrite (n + 1 + 1)).inbound, true, false⟩], ?_, hreplayed', ?_⟩
    · rw [hinputs, ← List.append_assoc, Runs.run_append, hrun, hwrite]
    · rw [effectSeqs, seqsWhere_concat, if_neg (by simp), List.append_nil]
      exact heffects

/-- After 1024 further executions the record of frame 1 is gone. -/
def forgottenIncrement : List ResponderInput :=
  [.arrive increment, .dispatch 0] ++ writesAfterIncrement 1024 ++
    [.arrive increment, .dispatch 0]

theorem carried_forgottenIncrement :
    ∀ i ∈ forgottenIncrement, Carried 2 incrementThenWrites i := by
  have hdispatch : Carried 2 incrementThenWrites (.dispatch 0) := trivial
  intro i hi
  simp only [forgottenIncrement, writesAfterIncrement, List.mem_append, List.mem_cons,
    List.mem_flatMap, List.mem_range'_1, List.not_mem_nil, or_false] at hi
  rcases hi with ((rfl | rfl) | ⟨seq, hseq, rfl | rfl⟩) | (rfl | rfl)
  · exact carried_increment
  · exact hdispatch
  · exact carried_refusedWrite (by omega) (by omega)
  · exact hdispatch
  · exact carried_increment
  · exact hdispatch

/-- Once frame 1 is no longer among the last 1024, its copy is executed again. -/
theorem Replayed.increment_again {r : Responder} (h : Replayed 1025 incrementedHost r) :
    (Runs.run Responder.step r [.arrive increment, .dispatch 0]).2 =
      [⟨increment.inbound, true, true⟩] := by
  obtain ⟨session, hreceiving⟩ := h.receiving
  obtain ⟨hout, session', hreceiving'⟩ :=
    hreceiving.arrive_seen sequencedFrom_increment (by decide) rfl
  have hunmarked : (arrive r.engine.transport increment).1.isExecuted 2 1 = false := by
    rw [← Bool.not_eq_true, hreceiving'.isExecuted_iff, List.rtake, List.length_range',
      List.range'_succ, List.drop_succ_cons, List.drop_zero, List.mem_range'_1]
    omega
  have hexec := executed_of_unmarked (e := { r.engine with
    transport := (arrive r.engine.transport increment).1 }) (f := increment.inbound) 0 2 rfl
    hunmarked
  obtain ⟨-, heffect⟩ := handleVerbFrame_atomicFaa (e := { r.engine with
    transport := (arrive r.engine.transport increment).1 }) (f := increment.inbound) 0 rfl
    hunmarked
  have hadded : (handleAtomicFaa r.engine.host increment.payload increment.ext).access.any
      (fun a => a.kind != .read) = true := by
    rw [h.host]
    decide
  simp [Responder.step, Responder.withTransport, h.inbound, hout, hexec.executed,
    heffect.trans hadded]

/-- A copy of the increment that arrives then has its effect a second time. -/
theorem forgotten_increment_executed_twice :
    (∀ i ∈ forgottenIncrement, Carried 2 incrementThenWrites i) ∧
      ¬ AtMostOnce 2
        (Runs.run Responder.step (.start counterEngine pairedManager) forgottenIncrement).2 := by
  refine ⟨carried_forgottenIncrement, ?_⟩
  obtain ⟨r, log, hrun, hreplayed, heffects⟩ := replayed_writes 1024 (by decide)
  rw [forgottenIncrement, Runs.run_append, hrun, AtMostOnce, effectSeqs]
  dsimp only
  rw [hreplayed.increment_again, seqsWhere_concat, ← effectSeqs, heffects, if_pos (by decide)]
  decide

end UniBus.DataPlane
