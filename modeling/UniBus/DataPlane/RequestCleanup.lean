import UniBus.DataPlane.RemoteCalls

/-!
# Cleaning up after a remote call

A call stores its channel in the pending table before it sends the request. A response,
a disconnect or the timeout takes the entry out again. When the send is refused, the call
returns without doing so.
-/
namespace UniBus.DataPlane

open Wire Transport

namespace CallPhase

def holds : CallPhase → Option UInt64
  | .begun _ _ opaqueId | .registered _ _ opaqueId | .waiting _ opaqueId => some opaqueId
  | .idle | .returned _ => none

/-- The identifier under which the channel of a call was stored. -/
def stored : CallPhase → Option UInt64
  | .registered _ _ opaqueId | .waiting _ opaqueId => some opaqueId
  | .idle | .begun .. | .returned _ => none

theorem holds_of_stored {phase : CallPhase} {opaqueId : UInt64}
    (h : phase.stored = some opaqueId) : phase.holds = some opaqueId := by
  cases phase with
  | registered | waiting => exact h
  | _ => cases h

end CallPhase

def CallInput.caller {ι : Type} : CallInput ι → Option ι
  | .begin i _ | .register i | .send i _ | .receive i | .giveUp i => some i
  | .task _ => none

/-- The entries of the other calls are neither removed nor replaced. -/
def Exchange.Spares {ι : Type} (i : ι) (x x' : Exchange ι) : Prop :=
  ∀ opaqueId call j, x.engine.pendingRequests.lookup opaqueId = some call →
    x.owner opaqueId = some j → j ≠ i →
    x'.engine.pendingRequests.lookup opaqueId = some call ∧ x'.owner opaqueId = some j

namespace RemoteCalls

variable {ι : Type} [DecidableEq ι]

/-- A call that returns has left nothing in the pending table under its identifier, and
no step of a call touches the entry of another one. -/
def Clean (p : RemoteCalls ι) (input : CallInput ι) : Prop :=
  (∀ i opaqueId result, .returned i (some opaqueId) result ∈ (p.step input).2 →
    (p.step input).1.shared.engine.pendingRequests.lookup opaqueId = none) ∧
  ∀ i, input.caller = some i → p.shared.Spares i (p.step input).1.shared

/-- The identifier that a call takes is not that of a call that has not returned. -/
def Fresh (p : RemoteCalls ι) : CallInput ι → Prop
  | .begin _ _ => ∀ j, (p.thread j).holds ≠ some p.shared.engine.nextOpaque
  | _ => True

/-- A request is accepted by its session and the channel to the peer, or its entry is
gone already. -/
def Accepted (p : RemoteCalls ι) : CallInput ι → Prop
  | .send i _ => ∀ call entry opaqueId, p.thread i = .registered call entry opaqueId →
      p.shared.engine.transport.CanSend entry.ownerNode ∧
          p.shared.engine.transport.Accepts entry.ownerNode ∨
        p.shared.engine.pendingRequests.lookup opaqueId = none
  | _ => True

/-! ## Who owns the entries -/

/-- Every entry belongs to a call that waits under its identifier and has no reply, and
no two calls have the same identifier. -/
structure Owned (p : RemoteCalls ι) : Prop where
  pending : ∀ opaqueId call, p.shared.engine.pendingRequests.lookup opaqueId = some call →
    ∃ i, p.shared.owner opaqueId = some i ∧ (p.thread i).stored = some opaqueId ∧
      p.shared.reply i = none
  unique : ∀ i j opaqueId, (p.thread i).holds = some opaqueId →
    (p.thread j).holds = some opaqueId → i = j

variable {p : RemoteCalls ι} {i : ι} {opaqueId : UInt64}

omit [DecidableEq ι] in
theorem Owned.own (h : p.Owned) (hholds : (p.thread i).holds = some opaqueId) {call : PendingCall}
    (hlookup : p.shared.engine.pendingRequests.lookup opaqueId = some call) :
    p.shared.owner opaqueId = some i ∧ (p.thread i).stored = some opaqueId ∧
      p.shared.reply i = none := by
  obtain ⟨j, howner, hstored, hreply⟩ := h.pending opaqueId call hlookup
  obtain rfl := h.unique i j opaqueId hholds (CallPhase.holds_of_stored hstored)
  exact ⟨howner, hstored, hreply⟩

omit [DecidableEq ι] in
theorem Owned.not_pending_of_begun (h : p.Owned) {call : RemoteCall} {entry : MrCacheEntry}
    (hphase : p.thread i = .begun call entry opaqueId) :
    p.shared.engine.pendingRequests.lookup opaqueId = none := by
  cases hlookup : p.shared.engine.pendingRequests.lookup opaqueId with
  | none => rfl
  | some pending =>
    have hown := h.own (by rw [hphase]; rfl) hlookup
    rw [hphase] at hown
    cases hown.2.1

omit [DecidableEq ι] in
theorem Owned.not_pending_of_reply (h : p.Owned) {call : RemoteCall} {response : VerbResponse}
    (hphase : p.thread i = .waiting call opaqueId) (hreply : p.shared.reply i = some response) :
    p.shared.engine.pendingRequests.lookup opaqueId = none := by
  cases hlookup : p.shared.engine.pendingRequests.lookup opaqueId with
  | none => rfl
  | some pending =>
    have hown := h.own (by rw [hphase]; rfl) hlookup
    cases hreply.symm.trans hown.2.2

/-- What remains to be shown after a turn of the call `i`. -/
theorem Owned.turn (h : p.Owned) {x : Exchange ι} {phase : CallPhase}
    (hpending : ∀ opaqueId call, x.engine.pendingRequests.lookup opaqueId = some call →
      (x.owner opaqueId = some i ∧ phase.stored = some opaqueId ∧ x.reply i = none) ∨
        ∃ j, j ≠ i ∧ x.owner opaqueId = some j ∧ (p.thread j).stored = some opaqueId ∧
          x.reply j = none)
    (hunique : ∀ opaqueId, phase.holds = some opaqueId →
      ∀ j, j ≠ i → (p.thread j).holds ≠ some opaqueId) :
    Owned ⟨x, Function.update p.thread i phase⟩ := by
  constructor
  · intro opaqueId call hlookup
    rcases hpending opaqueId call hlookup with hself | ⟨j, hj, hother⟩
    · exact ⟨i, by simpa using hself⟩
    · exact ⟨j, by simpa [hj] using hother⟩
  · intro j k opaqueId hj hk
    dsimp only at hj hk
    by_cases hji : j = i
    · subst hji
      rw [Function.update_self] at hj
      by_contra hne
      rw [Function.update_of_ne (Ne.symm hne)] at hk
      exact hunique opaqueId hj k (Ne.symm hne) hk
    · rw [Function.update_of_ne hji] at hj
      by_cases hki : k = i
      · subst hki
        rw [Function.update_self] at hk
        exact absurd hj (hunique opaqueId hk j hji)
      · rw [Function.update_of_ne hki] at hk
        exact h.unique j k opaqueId hj hk

/-! ## The steps of a call -/

omit [DecidableEq ι] in
theorem spares_of_eq {x x' : Exchange ι}
    (hpending : x'.engine.pendingRequests = x.engine.pendingRequests)
    (howner : x'.owner = x.owner) : x.Spares i x' := by
  intro opaqueId call j hlookup hj _
  rw [hpending, howner]
  exact ⟨hlookup, hj⟩

/-- The step is clean just in case it is no refused send, and then the entries stay owned. -/
structure Kept (p : RemoteCalls ι) (input : CallInput ι) : Prop where
  clean_iff : p.Clean input ↔ p.Accepted input
  owned : p.Clean input → (p.step input).1.Owned

theorem clean_of_silent {input : CallInput ι} {p' : RemoteCalls ι}
    (hstep : p.step input = (p', []))
    (hspares : ∀ i, input.caller = some i → p.shared.Spares i p'.shared) : p.Clean input := by
  rw [Clean, hstep]
  exact ⟨fun _ _ _ hmem => absurd hmem List.not_mem_nil, hspares⟩

section
variable (h : p.Owned)
include h

theorem Owned.kept_of_stay {input : CallInput ι} (hstep : p.step input = (p, []))
    (haccepted : p.Accepted input) : p.Kept input := by
  constructor
  · exact iff_of_true (clean_of_silent hstep fun _ _ => spares_of_eq rfl rfl) haccepted
  · intro _
    rw [hstep]
    exact h

theorem Owned.leave {input : CallInput ι} {engine : DataPlaneEngine} {id : Option UInt64}
    {result : Except UbError CallValue}
    (hstep : p.step input = (⟨⟨engine, p.shared.owner, p.shared.reply⟩,
      Function.update p.thread i (.returned result)⟩, [.returned i id result]))
    (hcaller : input.caller = some i) (hid : (p.thread i).holds = id)
    (hpending : ∀ opaqueId, id ≠ some opaqueId → engine.pendingRequests.lookup opaqueId =
      p.shared.engine.pendingRequests.lookup opaqueId) :
    (p.Clean input ↔ ∀ opaqueId, id = some opaqueId →
        engine.pendingRequests.lookup opaqueId = none) ∧
      (p.Clean input → (p.step input).1.Owned) := by
  have hclean : p.Clean input → ∀ opaqueId, id = some opaqueId →
      engine.pendingRequests.lookup opaqueId = none := by
    rintro ⟨hreturned, -⟩ opaqueId rfl
    rw [hstep] at hreturned
    exact hreturned i opaqueId result List.mem_cons_self
  refine ⟨⟨hclean, ?_⟩, ?_⟩
  · intro hnone
    rw [Clean, hstep]
    constructor
    · intro j opaqueId result' hmem
      cases List.mem_singleton.mp hmem
      exact hnone opaqueId rfl
    · intro i' hi' opaqueId call j hlookup hj hne
      obtain rfl : i = i' := Option.some.inj (hcaller.symm.trans hi')
      have hother : id ≠ some opaqueId := by
        intro heq
        have hown := (h.own (hid.trans heq) hlookup).1
        exact hne (Option.some.inj (hj.symm.trans hown))
      exact ⟨(hpending opaqueId hother).trans hlookup, hj⟩
  · intro hkept
    have hnone := hclean hkept
    rw [hstep]
    apply h.turn
    · intro opaqueId call hlookup
      have hother : id ≠ some opaqueId := by
        intro heq
        cases (hnone opaqueId heq).symm.trans hlookup
      obtain ⟨j, hj, hstored, hnoreply⟩ :=
        h.pending opaqueId call ((hpending opaqueId hother).symm.trans hlookup)
      refine Or.inr ⟨j, ?_, hj, hstored, hnoreply⟩
      rintro rfl
      exact hother (hid.symm.trans (CallPhase.holds_of_stored hstored))
    · nofun

theorem Owned.kept_begin {call : RemoteCall} (hfresh : p.Fresh (.begin i call)) :
    p.Kept (.begin i call) := by
  cases hphase : p.thread i with
  | idle =>
    cases hentry : p.shared.engine.mrCache.lookupByAddr call.addr with
    | none =>
      have hstep : p.step (.begin i call) =
          (⟨p.shared, Function.update p.thread i (.returned (.error .addrInvalid))⟩,
            [.returned i none (.error .addrInvalid)]) := by
        simp [step, Threads.Pool.turn, Exchange.begin, hphase, hentry]
      have hleave := h.leave hstep rfl (by rw [hphase]; rfl) fun _ _ => rfl
      refine ⟨hleave.1.trans (iff_of_true ?_ trivial), hleave.2⟩
      intro opaqueId hid
      cases hid
    | some entry =>
      have hstep : p.step (.begin i call) =
          (⟨{ p.shared with engine :=
                { p.shared.engine with nextOpaque := p.shared.engine.nextOpaque + 1 } },
            Function.update p.thread i (.begun call entry p.shared.engine.nextOpaque)⟩, []) := by
        simp [step, Threads.Pool.turn, Exchange.begin, hphase, hentry]
      constructor
      · exact iff_of_true (clean_of_silent hstep fun _ _ => spares_of_eq rfl rfl) trivial
      · intro _
        rw [hstep]
        apply h.turn
        · intro opaqueId call' hlookup
          obtain ⟨j, hj, hstored, hnone⟩ := h.pending opaqueId call' hlookup
          refine Or.inr ⟨j, ?_, hj, hstored, hnone⟩
          rintro rfl
          rw [hphase] at hstored
          cases hstored
        · rintro opaqueId ⟨⟩ j -
          exact hfresh j
  | _ =>
    refine h.kept_of_stay ?_ trivial
    rw [step, Threads.Pool.turn_eq_self]
    rw [hphase]
    rfl

theorem Owned.kept_register : p.Kept (.register i) := by
  cases hphase : p.thread i with
  | begun call entry opaqueId =>
    have hnone := h.not_pending_of_begun hphase
    have hstep : p.step (.register i) =
        (⟨⟨{ p.shared.engine with
              pendingRequests :=
                p.shared.engine.pendingRequests.insert opaqueId ⟨entry.ownerNode, call.verb⟩ },
            Function.update p.shared.owner opaqueId (some i),
            Function.update p.shared.reply i none⟩,
          Function.update p.thread i (.registered call entry opaqueId)⟩, []) := by
      simp [step, Threads.Pool.turn, Exchange.register, hphase]
    constructor
    · refine iff_of_true (clean_of_silent hstep ?_) trivial
      rintro i ⟨⟩ other call' j hlookup hj hne
      have hother : other ≠ opaqueId := by
        rintro rfl
        cases hnone.symm.trans hlookup
      exact ⟨(AList.lookup_insert_ne hother).trans hlookup,
        (Function.update_of_ne hother ..).trans hj⟩
    · intro _
      rw [hstep]
      apply h.turn
      · intro other call' hlookup
        by_cases hother : other = opaqueId
        · subst hother
          exact Or.inl ⟨Function.update_self .., rfl, Function.update_self ..⟩
        · dsimp only at hlookup
          rw [AList.lookup_insert_ne hother] at hlookup
          obtain ⟨j, hj, hstored, hnoreply⟩ := h.pending other call' hlookup
          have hne : j ≠ i := by
            rintro rfl
            rw [hphase] at hstored
            cases hstored
          exact Or.inr ⟨j, hne, (Function.update_of_ne hother ..).trans hj, hstored,
            (Function.update_of_ne hne ..).trans hnoreply⟩
      · rintro other ⟨⟩ j hne hj
        exact hne (h.unique j i opaqueId hj (by rw [hphase]; rfl))
  | _ =>
    refine h.kept_of_stay ?_ trivial
    rw [step, Threads.Pool.turn_eq_self]
    rw [hphase]
    rfl

theorem Owned.kept_receive : p.Kept (.receive i) := by
  cases hphase : p.thread i with
  | waiting call opaqueId =>
    cases hreply : p.shared.reply i with
    | none =>
      refine h.kept_of_stay ?_ trivial
      rw [step, Threads.Pool.turn_eq_self]
      simp [Exchange.receive, hphase, hreply]
    | some response =>
      have hnone := h.not_pending_of_reply hphase hreply
      have hstep : p.step (.receive i) =
          (⟨p.shared, Function.update p.thread i (.returned (call.finish response))⟩,
            [.returned i (some opaqueId) (call.finish response)]) := by
        simp [step, Threads.Pool.turn, Exchange.receive, hphase, hreply]
      have hleave := h.leave hstep rfl (by rw [hphase]; rfl) fun _ _ => rfl
      refine ⟨hleave.1.trans (iff_of_true ?_ trivial), hleave.2⟩
      rintro other ⟨⟩
      exact hnone
  | _ =>
    refine h.kept_of_stay ?_ trivial
    rw [step, Threads.Pool.turn_eq_self]
    rw [hphase]
    rfl

theorem Owned.kept_giveUp : p.Kept (.giveUp i) := by
  cases hphase : p.thread i with
  | waiting call opaqueId =>
    have hstep : p.step (.giveUp i) =
        (⟨{ p.shared with engine := p.shared.engine.timeoutRequest opaqueId },
          Function.update p.thread i (.returned (.error .timeout))⟩,
          [.returned i (some opaqueId) (.error .timeout)]) := by
      simp [step, Threads.Pool.turn, Exchange.giveUp, hphase]
    have hleave := h.leave hstep rfl (by rw [hphase]; rfl) fun other hother =>
      AList.lookup_erase_ne fun heq => hother (congrArg some heq.symm)
    refine ⟨hleave.1.trans (iff_of_true ?_ trivial), hleave.2⟩
    rintro other ⟨⟩
    exact AList.lookup_erase _ _
  | _ =>
    refine h.kept_of_stay ?_ trivial
    rw [step, Threads.Pool.turn_eq_self]
    rw [hphase]
    rfl

theorem Owned.kept_send_ok {now : Instant} {call : RemoteCall} {entry : MrCacheEntry}
    {transport : TransportManager} {seq : ℕ} (hphase : p.thread i = .registered call entry opaqueId)
    (hsent : p.shared.engine.transport.send now entry.ownerNode
      (p.shared.request call entry opaqueId) false opaqueId = (transport, .ok seq)) :
    p.Kept (.send i now) := by
  have hstep : p.step (.send i now) =
      (⟨{ p.shared with engine := { p.shared.engine with transport } },
        Function.update p.thread i (.waiting call opaqueId)⟩, []) := by
    simp [step, Threads.Pool.turn, Exchange.send, hphase, hsent]
  constructor
  · apply iff_of_true
    · exact clean_of_silent hstep fun _ _ => spares_of_eq rfl rfl
    · intro call' entry' other hphase'
      cases hphase.symm.trans hphase'
      exact Or.inl ((TransportManager.send_ok_iff ..).mp ⟨seq, congrArg Prod.snd hsent⟩)
  · intro _
    rw [hstep]
    apply h.turn
    · intro other call' hlookup
      obtain ⟨j, hj, hstored, hnone⟩ := h.pending other call' hlookup
      by_cases hne : j = i
      · subst hne
        rw [hphase] at hstored
        exact Or.inl ⟨hj, hstored, hnone⟩
      · exact Or.inr ⟨j, hne, hj, hstored, hnone⟩
    · rintro other ⟨⟩ j hne hj
      exact hne (h.unique j i opaqueId hj (by rw [hphase]; rfl))

theorem Owned.kept_send_error {now : Instant} {call : RemoteCall} {entry : MrCacheEntry}
    {transport : TransportManager} {e : UbError}
    (hphase : p.thread i = .registered call entry opaqueId)
    (hsent : p.shared.engine.transport.send now entry.ownerNode
      (p.shared.request call entry opaqueId) false opaqueId = (transport, .error e)) :
    p.Kept (.send i now) := by
  have hstep : p.step (.send i now) =
      (⟨{ p.shared with engine := { p.shared.engine with transport } },
        Function.update p.thread i (.returned (.error e))⟩,
        [.returned i (some opaqueId) (.error e)]) := by
    simp [step, Threads.Pool.turn, Exchange.send, hphase, hsent]
  have hleave := h.leave hstep rfl (by rw [hphase]; rfl) fun _ _ => rfl
  have hrefused : ¬ (p.shared.engine.transport.CanSend entry.ownerNode ∧
      p.shared.engine.transport.Accepts entry.ownerNode) := by
    intro haccepts
    obtain ⟨seq, hok⟩ := (TransportManager.send_ok_iff _ now entry.ownerNode
      (p.shared.request call entry opaqueId) false opaqueId).mpr haccepts
    rw [hsent] at hok
    cases hok
  refine ⟨hleave.1.trans ⟨?_, ?_⟩, hleave.2⟩
  · intro hnone call' entry' other hphase'
    cases hphase.symm.trans hphase'
    exact Or.inr (hnone opaqueId rfl)
  · rintro haccepted other ⟨⟩
    exact (haccepted call entry opaqueId hphase).resolve_left hrefused

theorem Owned.kept_send (now : Instant) : p.Kept (.send i now) := by
  cases hphase : p.thread i with
  | registered call entry opaqueId =>
    rcases hsent : p.shared.engine.transport.send now entry.ownerNode
      (p.shared.request call entry opaqueId) false opaqueId with ⟨transport, result⟩
    cases result with
    | ok seq => exact h.kept_send_ok hphase hsent
    | error e => exact h.kept_send_error hphase hsent
  | _ =>
    apply h.kept_of_stay
    · rw [step, Threads.Pool.turn_eq_self]
      rw [hphase]
      rfl
    · intro call' entry' other hphase'
      cases hphase.symm.trans hphase'

end

theorem returned_not_mem_task (t : EngineTask) (j : ι) (id : Option UInt64)
    (result : Except UbError CallValue) :
    .returned j id result ∉ (p.step (.task t)).2 := by
  intro hmem
  rcases List.mem_append.mp hmem with hcompleted | hanswered
  · obtain ⟨c, -, hc⟩ := List.mem_map.mp hcompleted
    cases hc
  · cases t with
    | handleVerbFrame now f => simp [EngineTask.answers] at hanswered
    | _ => cases hanswered

theorem Owned.deliver_eq (h : p.Owned) {completions : List Completion}
    (hpending : ∀ c ∈ completions,
      p.shared.engine.pendingRequests.lookup c.opaqueId = some c.call)
    (hstored : (p.thread i).stored = some opaqueId)
    (hother : ∀ c ∈ completions, c.opaqueId ≠ opaqueId) :
    p.shared.deliver completions i = p.shared.reply i := by
  have hnone : completions.find? (fun c => p.shared.owner c.opaqueId == some i) = none := by
    rw [List.find?_eq_none]
    intro c hc howner
    obtain ⟨j, hj, hstoredj, -⟩ := h.pending c.opaqueId c.call (hpending c hc)
    obtain rfl : j = i := Option.some.inj (hj.symm.trans (beq_iff_eq.mp howner))
    exact hother c hc (Option.some.inj (hstoredj.symm.trans hstored))
  rw [Exchange.deliver, hnone]
  rfl

/-- The other tasks take out entries and complete the calls that own them. -/
theorem Owned.kept_task (h : p.Owned) (t : EngineTask) : p.Kept (.task t) := by
  have hremoves := removes_runTask p.shared.engine t
  constructor
  · refine iff_of_true ⟨?_, nofun⟩ trivial
    intro j id result hmem
    exact absurd hmem (returned_not_mem_task t j (some id) result)
  · intro _
    refine ⟨?_, h.unique⟩
    intro other call hlookup
    have hother : ∀ c ∈ (p.shared.engine.runTask t).2, c.opaqueId ≠ other := by
      rintro c hc rfl
      cases (hremoves.removed c hc).symm.trans hlookup
    obtain ⟨j, hj, hstored, hnone⟩ :=
      h.pending other call ((hremoves.kept other hother).symm.trans hlookup)
    exact ⟨j, hj, hstored, (h.deliver_eq hremoves.pending hstored hother).trans hnone⟩

theorem Owned.kept (h : p.Owned) {input : CallInput ι} (hfresh : p.Fresh input) :
    p.Kept input := by
  cases input with
  | begin i call => exact h.kept_begin hfresh
  | register i => exact h.kept_register
  | send i now => exact h.kept_send now
  | receive i => exact h.kept_receive
  | giveUp i => exact h.kept_giveUp
  | task t => exact h.kept_task t

omit [DecidableEq ι] in
theorem owned_new (localNodeId : UInt16) (host : Host) (mrCache : MrCacheTable)
    (transport : TransportManager) :
    (new (.new localNodeId host mrCache transport) : RemoteCalls ι).Owned := by
  constructor
  · intro opaqueId call hlookup
    cases hlookup
  · intro i j opaqueId hholds
    cases hholds

/-- As long as no identifier is taken again while a call has it, calls clean up after
themselves in a run, just in case every request that is refused has lost its entry
before. -/
theorem calls_clean_up_iff (localNodeId : UInt16) (host : Host) (mrCache : MrCacheTable)
    (transport : TransportManager) (inputs : List (CallInput ι)) :
    Runs.Meets step (fun p _ input => p.Fresh input ∧ p.Clean input)
        (new (.new localNodeId host mrCache transport)) [] inputs ↔
      Runs.Meets step (fun p _ input => p.Fresh input ∧ p.Accepted input)
        (new (.new localNodeId host mrCache transport)) [] inputs := by
  refine Runs.meets_iff (I := fun p _ => Owned p) ?_ ?_
    (owned_new localNodeId host mrCache transport) inputs
  · intro p _ input h
    exact and_congr_right fun hfresh => (h.kept hfresh).clean_iff
  · intro p _ input h hinput
    exact (h.kept hinput.1).owned hinput.2

end RemoteCalls

/-! ## Identifiers of short runs -/

theorem DataPlaneEngine.runTask_nextOpaque (e : DataPlaneEngine) (t : EngineTask) :
    (e.runTask t).1.nextOpaque = e.nextOpaque := by
  cases t with
  | handleVerbFrame now f => exact (serves_handleVerbFrame e now f).nextOpaque
  | _ => rfl

namespace Exchange

variable {ι : Type} (x : Exchange ι) (i : ι) (phase : CallPhase)

/-- The turn of a call in the given phase takes no identifier. -/
def TakesNone (out : Exchange ι × CallPhase × List (CallEvent ι)) : Prop :=
  out.1.engine.nextOpaque = x.engine.nextOpaque ∧
    ∀ opaqueId, out.2.1.holds = some opaqueId → phase.holds = some opaqueId

theorem takesNone_register [DecidableEq ι] : x.TakesNone phase (x.register i phase) := by
  cases phase <;> exact ⟨rfl, fun _ => id⟩

theorem takesNone_send (now : Instant) : x.TakesNone phase (x.send i now phase) := by
  unfold send
  split
  · dsimp only
    split
    · exact ⟨rfl, nofun⟩
    · exact ⟨rfl, fun _ => id⟩
  · exact ⟨rfl, fun _ => id⟩

theorem takesNone_receive : x.TakesNone phase (x.receive i phase) := by
  unfold receive
  split
  · split
    · exact ⟨rfl, fun _ => id⟩
    · exact ⟨rfl, nofun⟩
  · exact ⟨rfl, fun _ => id⟩

theorem takesNone_giveUp : x.TakesNone phase (x.giveUp i phase) := by
  unfold giveUp
  split
  · exact ⟨rfl, nofun⟩
  · exact ⟨rfl, fun _ => id⟩

end Exchange

namespace RemoteCalls

variable {ι : Type} [DecidableEq ι] {p : RemoteCalls ι} {i : ι}

/-- The identifiers taken so far are at most `n`. -/
structure Numbered (n : ℕ) (p : RemoteCalls ι) : Prop where
  next : p.shared.engine.nextOpaque = UInt64.ofNat (n + 1)
  held : ∀ i opaqueId, (p.thread i).holds = some opaqueId → opaqueId.toNat ≤ n

omit [DecidableEq ι] in
theorem Numbered.fresh {n : ℕ} (h : Numbered n p) (hn : n + 1 < 2 ^ 64) (input : CallInput ι) :
    p.Fresh input := by
  cases input with
  | begin i call =>
    intro j hj
    have hle := h.held j _ hj
    rw [h.next, UInt64.toNat_ofNat_of_lt' hn] at hle
    omega
  | _ => trivial

theorem Numbered.turn {n m : ℕ} (h : Numbered n p) (hle : n ≤ m) {x : Exchange ι}
    {phase : CallPhase} (hnext : x.engine.nextOpaque = UInt64.ofNat (m + 1))
    (hphase : ∀ opaqueId, phase.holds = some opaqueId → opaqueId.toNat ≤ m) :
    Numbered m ⟨x, Function.update p.thread i phase⟩ := by
  refine ⟨hnext, ?_⟩
  intro j opaqueId hholds
  dsimp only at hholds
  by_cases hj : j = i
  · subst hj
    rw [Function.update_self] at hholds
    exact hphase opaqueId hholds
  · rw [Function.update_of_ne hj] at hholds
    exact (h.held j opaqueId hholds).trans hle

theorem Numbered.keep {n : ℕ} (h : Numbered n p)
    {act : Exchange ι → CallPhase → Exchange ι × CallPhase × List (CallEvent ι)}
    (hact : p.shared.TakesNone (p.thread i) (act p.shared (p.thread i))) :
    ∃ m ≤ n + 1, Numbered m (p.turn i act).1 :=
  ⟨n, Nat.le_succ n, h.turn le_rfl (hact.1.trans h.next) fun opaqueId hholds =>
    h.held i opaqueId (hact.2 opaqueId hholds)⟩

/-- The turn in which a call may take an identifier. -/
theorem Numbered.begin {n : ℕ} (h : Numbered n p) (hn : n + 1 < 2 ^ 64) (call : RemoteCall) :
    ∃ m ≤ n + 1, Numbered m (p.step (.begin i call)).1 := by
  rw [step]
  cases hphase : p.thread i with
  | idle =>
    cases hentry : p.shared.engine.mrCache.lookupByAddr call.addr with
    | none =>
      apply h.keep
      simp only [hphase, Exchange.begin, hentry]
      exact ⟨rfl, fun _ hholds => (by cases hholds)⟩
    | some entry =>
      simp only [Threads.Pool.turn, hphase, Exchange.begin, hentry]
      refine ⟨n + 1, le_rfl, h.turn (Nat.le_succ n) ?_ ?_⟩
      · rw [h.next, UInt64.ofNat_add (n + 1) 1]
        rfl
      · rintro opaqueId ⟨⟩
        rw [h.next, UInt64.toNat_ofNat_of_lt' hn]
  | _ =>
    apply h.keep
    rw [hphase]
    exact ⟨rfl, fun _ => id⟩

theorem Numbered.step {n : ℕ} (h : Numbered n p) (hn : n + 1 < 2 ^ 64) (input : CallInput ι) :
    ∃ m ≤ n + 1, Numbered m (p.step input).1 := by
  cases input with
  | begin i call => exact h.begin hn call
  | register i => exact h.keep (p.shared.takesNone_register i (p.thread i))
  | send i now => exact h.keep (p.shared.takesNone_send i (p.thread i) now)
  | receive i => exact h.keep (p.shared.takesNone_receive i (p.thread i))
  | giveUp i => exact h.keep (p.shared.takesNone_giveUp i (p.thread i))
  | task t =>
    exact ⟨n, Nat.le_succ n, (p.shared.engine.runTask_nextOpaque t).trans h.next, h.held⟩

/-- A run of fewer than `2 ^ 64` steps takes no identifier twice. -/
theorem Numbered.meets_fresh {n : ℕ} (h : Numbered n p) {inputs : List (CallInput ι)}
    (hlength : n + inputs.length < 2 ^ 64) (log : List (CallEvent ι)) :
    Runs.Meets RemoteCalls.step (fun p _ input => p.Fresh input) p log inputs := by
  induction inputs generalizing n p log with
  | nil => trivial
  | cons input inputs ih =>
    rw [List.length_cons] at hlength
    obtain ⟨m, hm, hnumbered⟩ := h.step (by omega) input
    exact ⟨h.fresh (by omega) input, ih hnumbered (by omega) _⟩

omit [DecidableEq ι] in
theorem numbered_new (localNodeId : UInt16) (host : Host) (mrCache : MrCacheTable)
    (transport : TransportManager) :
    Numbered 0 (new (.new localNodeId host mrCache transport) : RemoteCalls ι) := by
  refine ⟨rfl, ?_⟩
  intro i opaqueId hholds
  cases hholds

/-- In a run of fewer than `2 ^ 64` steps every call cleans up, as long as its request is
accepted or has lost its entry before it is sent. -/
theorem calls_clean_up (localNodeId : UInt16) (host : Host) (mrCache : MrCacheTable)
    (transport : TransportManager) {inputs : List (CallInput ι)} (hlength : inputs.length < 2 ^ 64)
    (haccepted : Runs.Meets step (fun p _ input => p.Accepted input)
      (new (.new localNodeId host mrCache transport)) [] inputs) :
    Runs.Meets step (fun p _ input => p.Clean input)
      (new (.new localNodeId host mrCache transport)) [] inputs := by
  have hfresh := (numbered_new localNodeId host mrCache transport).meets_fresh
    (by rwa [Nat.zero_add]) []
  have hclean := Runs.Meets.of_invariant (I := fun p _ => Owned p)
    (fun p _ input h hinput => (h.kept hinput.1).clean_iff.mpr hinput.2)
    (fun p _ input h hinput => (h.kept hinput.1).owned ((h.kept hinput.1).clean_iff.mpr hinput.2))
    (owned_new localNodeId host mrCache transport) (hfresh.and haccepted)
  exact hclean

/-- Node 2 reads from node 1 without a session: the call returns and its entry stays. -/
theorem refused_call_leaves_entry :
    let returned := Runs.run step (new readingEngine : RemoteCalls (Fin 1))
      [.begin 0 (.ubReadRemote (UbAddr.new 1 1 0 0 0) 16), .register 0, .send 0 0]
    returned.2 = [.returned 0 (some 1) (.error .linkDown)] ∧
      returned.1.shared.engine.pendingRequests.lookup 1 = some ⟨1, .readReq⟩ := by
  decide

end RemoteCalls
end UniBus.DataPlane
