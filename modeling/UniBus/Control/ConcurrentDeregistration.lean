import UniBus.Control.MrSync
import UniBus.Foundations.Threads

/-!
# Deregistrations of one region

Any number of callers run `deregister` or `deregister_async` on the same handle. The
look into the table, the exchange of the state, the event, the wait, the store of the
state and the removal are steps of their own, and the steps of all callers interleave;
the lock that `deregister` holds from its look to its event only rules out some of the
interleavings. Handlers take and give back references in between.
-/
namespace UniBus.Control

inductive DeregisterKind
  | deregister
  | deregisterAsync
  deriving DecidableEq, Repr

/-- Where a caller stands. -/
inductive RevokePhase
  | start
  | found
  /-- The exchange from Active to Revoking has succeeded. -/
  | exchanged
  | announced
  | waiting
  | releasing (timedOut : Bool)
  | removing (timedOut : Bool)
  | returned (result : Except UbError Unit)
  deriving DecidableEq

structure Caller where
  kind : DeregisterKind
  phase : RevokePhase
  deriving DecidableEq

inductive RevokeInput (ι : Type)
  /-- The next step of a caller; a wait that ends with it ends by the timeout or not. -/
  | turn (i : ι) (timedOut : Bool)
  /-- Handlers take or give back references. -/
  | inflight (count : ℤ)

abbrev Callers (ι : Type) := Threads.Pool ι MrTable Caller

def alreadyRevoked : UbError := .internal "MR is already being deregistered or released"

/-- The next step of a caller; events are only sent if the table has a channel. -/
def revokeStep (handle : UInt32) (channel timedOut : Bool) (t : MrTable) (c : Caller) :
    MrTable × Caller × List MrPublishEvent :=
  match c.phase with
  | .start =>
    match t.entries.lookup handle with
    | none => (t, { c with phase := .returned (.error .addrInvalid) }, [])
    | some _ => (t, { c with phase := .found }, [])
  | .found =>
    if (t.cells handle).state = .active then
      (t.setState handle .revoking, { c with phase := .exchanged }, [])
    else (t, { c with phase := .returned (.error alreadyRevoked) }, [])
  | .exchanged =>
    let events := if channel then [.revoke t.nodeId handle] else []
    match c.kind with
    | .deregister => (t, { c with phase := .removing false }, events)
    | .deregisterAsync => (t, { c with phase := .announced }, events)
  | .announced =>
    if (t.cells handle).inflightRefs > 0 then (t, { c with phase := .waiting }, [])
    else (t, { c with phase := .releasing false }, [])
  | .waiting => (t, { c with phase := .releasing timedOut }, [])
  | .releasing timedOut => (t.setState handle .released, { c with phase := .removing timedOut }, [])
  | .removing timedOut =>
    let result := if timedOut then .error .timeout else .ok ()
    (t.removeEntry handle, { c with phase := .returned result }, [])
  | .returned result => (t, { c with phase := .returned result }, [])

namespace Callers

variable {ι : Type}

def new (t : MrTable) (kind : ι → DeregisterKind) : Callers ι := ⟨t, fun i => ⟨kind i, .start⟩⟩

def step [DecidableEq ι] (handle : UInt32) (channel : Bool) (p : Callers ι) :
    RevokeInput ι → Callers ι × List MrPublishEvent
  | .turn i timedOut => p.turn i (revokeStep handle channel timedOut)
  | .inflight count => ({ p with shared := p.shared.inflightAdd handle count }, [])

def state (handle : UInt32) (p : Callers ι) : MrState := (p.shared.cells handle).state

end Callers

/-- One step along Active, Revoking, Released, or none. -/
def Forward (s s' : MrState) : Prop :=
  s' = s ∨ (s = .active ∧ s' = .revoking) ∨ (s = .revoking ∧ s' = .released)

namespace RevokePhase

def Passed : RevokePhase → Prop
  | start | found => False
  | exchanged | announced | waiting | releasing _ | removing _ => True
  | returned result => result = .ok () ∨ result = .error .timeout

/-- Past the exchange, with the store of the state still to come in `deregister_async`. -/
def Pending : RevokePhase → Prop
  | exchanged | announced | waiting | releasing _ => True
  | _ => False

theorem Pending.passed {phase : RevokePhase} (h : phase.Pending) : phase.Passed := by
  cases phase with
  | start | found | removing | returned => exact h.elim
  | _ => trivial

/-- Past the event. -/
def Announced (phase : RevokePhase) : Prop := phase.Passed ∧ phase ≠ exchanged

/-- The results of a call. -/
def Settled (phase : RevokePhase) : Prop :=
  ∀ result, phase = returned result →
    phase.Passed ∨ result = .error .addrInvalid ∨ result = .error alreadyRevoked

/-- An upper bound for the steps to the return. -/
def turnsLeft : RevokePhase → ℕ
  | start => 7
  | found => 6
  | exchanged => 5
  | announced => 4
  | waiting => 3
  | releasing _ => 2
  | removing _ => 1
  | returned _ => 0

end RevokePhase

/-! ## What a step of a caller does -/

/-- The kinds of steps: those that say nothing to the others, the exchange, the event and
the store. -/
inductive Move (revoke : MrPublishEvent) (s s' : MrState) (phase phase' : RevokePhase)
    (events : List MrPublishEvent) : Prop
  | quiet (hs : s' = s) (hevents : events = []) (hpassed : phase'.Passed ↔ phase.Passed)
      (hpending : phase'.Pending → phase.Pending) (hannounced : phase.Announced → phase'.Announced)
  | exchange (hs : s = .active) (hs' : s' = .revoking) (hevents : events = [])
      (hphase : ¬ phase.Passed) (hphase' : phase' = .exchanged)
  | announce (hs : s' = s) (hevents : events = [] ∨ events = [revoke])
      (hphase : phase = .exchanged) (hphase' : phase'.Announced)
  | store (hs' : s' = .released) (hevents : events = []) (hphase : phase.Pending)
      (hannounced : phase.Announced) (hphase' : phase'.Announced) (hdone : ¬ phase'.Pending)

variable {handle : UInt32} {channel : Bool}

theorem state_setState (t : MrTable) (state : MrState) :
    ((t.setState handle state).cells handle).state = state := by
  simp [MrTable.setState]

/-- Before the exchange, and in the last turns, a step changes nothing for the others. -/
theorem Move.of_start {revoke : MrPublishEvent} {s : MrState} {phase phase' : RevokePhase}
    (hphase : ¬ phase.Passed) (hphase' : ¬ phase'.Passed) (hpending : ¬ phase'.Pending) :
    Move revoke s s phase phase' [] :=
  .quiet rfl rfl (iff_of_false hphase' hphase) (fun h => absurd h hpending)
    (fun h => absurd h.1 hphase)

theorem Move.of_passed {revoke : MrPublishEvent} {s : MrState} {phase phase' : RevokePhase}
    (hphase : phase.Passed) (hphase' : phase'.Announced)
    (hpending : phase'.Pending → phase.Pending) :
    Move revoke s s phase phase' [] :=
  .quiet rfl rfl (iff_of_true hphase'.1 hphase) hpending (fun _ => hphase')

variable (timedOut : Bool)

theorem move_revokeStep (t : MrTable) (c : Caller) :
    Move (.revoke t.nodeId handle) (t.cells handle).state
      ((revokeStep handle channel timedOut t c).1.cells handle).state c.phase
      (revokeStep handle channel timedOut t c).2.1.phase
      (revokeStep handle channel timedOut t c).2.2 := by
  unfold revokeStep
  cases hphase : c.phase with
  | start =>
    cases t.entries.lookup handle with
    | none => exact Move.of_start id (by simp [RevokePhase.Passed]) id
    | some e => exact Move.of_start id id id
  | found =>
    dsimp only
    split_ifs with hactive
    · exact .exchange hactive (state_setState t _) rfl id rfl
    · exact Move.of_start id (by simp [RevokePhase.Passed, alreadyRevoked]) id
  | exchanged =>
    have hevents : (if channel then [MrPublishEvent.revoke t.nodeId handle] else []) = [] ∨
        (if channel then [MrPublishEvent.revoke t.nodeId handle] else []) =
          [.revoke t.nodeId handle] := by
      cases channel <;> simp
    cases c.kind with
    | deregister => exact .announce rfl hevents rfl ⟨trivial, nofun⟩
    | deregisterAsync => exact .announce rfl hevents rfl ⟨trivial, nofun⟩
  | announced =>
    dsimp only
    split_ifs
    · exact Move.of_passed trivial ⟨trivial, nofun⟩ id
    · exact Move.of_passed trivial ⟨trivial, nofun⟩ id
  | waiting => exact Move.of_passed trivial ⟨trivial, nofun⟩ id
  | releasing timedOut =>
    exact .store (state_setState t _) rfl trivial ⟨trivial, nofun⟩ ⟨trivial, nofun⟩ id
  | removing timedOut =>
    refine Move.of_passed trivial ⟨?_, nofun⟩ id
    cases timedOut
    · exact Or.inl rfl
    · exact Or.inr rfl
  | returned result => exact .quiet rfl rfl Iff.rfl id id

theorem nodeId_revokeStep (t : MrTable) (c : Caller) :
    (revokeStep handle channel timedOut t c).1.nodeId = t.nodeId := by
  unfold revokeStep
  cases c.phase with
  | start => cases t.entries.lookup handle <;> rfl
  | found =>
    dsimp only
    split_ifs <;> rfl
  | exchanged => cases c.kind <;> rfl
  | announced =>
    dsimp only
    split_ifs <;> rfl
  | _ => rfl

theorem settled_revokeStep (t : MrTable) {c : Caller} (h : c.phase.Settled) :
    (revokeStep handle channel timedOut t c).2.1.phase.Settled := by
  unfold revokeStep
  cases hphase : c.phase with
  | start =>
    cases t.entries.lookup handle with
    | none =>
      rintro result ⟨rfl⟩
      exact Or.inr (Or.inl rfl)
    | some e => nofun
  | found =>
    dsimp only
    split_ifs
    · nofun
    · rintro result ⟨rfl⟩
      exact Or.inr (Or.inr rfl)
  | exchanged => cases c.kind <;> nofun
  | announced =>
    dsimp only
    split_ifs <;> nofun
  | removing timedOut =>
    rintro result ⟨rfl⟩
    cases timedOut
    · exact Or.inl (Or.inl rfl)
    · exact Or.inl (Or.inr rfl)
  | returned result =>
    rw [hphase] at h
    exact h
  | _ => nofun

theorem turnsLeft_revokeStep (t : MrTable) (c : Caller) :
    (revokeStep handle channel timedOut t c).2.1.phase.turnsLeft ≤ c.phase.turnsLeft - 1 := by
  unfold revokeStep
  cases c.phase with
  | start => cases t.entries.lookup handle <;> simp [RevokePhase.turnsLeft]
  | found =>
    dsimp only
    split_ifs <;> simp [RevokePhase.turnsLeft]
  | exchanged => cases c.kind <;> simp [RevokePhase.turnsLeft]
  | announced =>
    dsimp only
    split_ifs <;> simp [RevokePhase.turnsLeft]
  | _ => simp [RevokePhase.turnsLeft]

/-! ## All callers -/

namespace Callers

variable {ι : Type}

/-- The callers and the events sent so far. -/
structure Once (handle : UInt32) (nodeId : UInt16) (log : List MrPublishEvent)
    (p : Callers ι) : Prop where
  alone : ∀ i j, (p.thread i).phase.Passed → (p.thread j).phase.Passed → i = j
  revoked : ∀ i, (p.thread i).phase.Passed → p.state handle ≠ .active
  pending : ∀ i, (p.thread i).phase.Pending → p.state handle = .revoking
  nodeId_eq : p.shared.nodeId = nodeId
  log_eq : log = [] ∨ log = [.revoke nodeId handle] ∧ ∃ i, (p.thread i).phase.Announced

theorem once_new (t : MrTable) (kind : ι → DeregisterKind) :
    Once handle t.nodeId [] (new t kind) := by
  constructor
  · intro i j hi
    exact hi.elim
  · intro i hi
    exact hi.elim
  · intro i hi
    exact hi.elim
  · rfl
  · exact Or.inl rfl

section Move
variable {nodeId : UInt16} {log events : List MrPublishEvent} {p p' : Callers ι} {i : ι}

/-- Only the caller `i` has moved. -/
def Others (i : ι) (p p' : Callers ι) : Prop := ∀ j, j ≠ i → p'.thread j = p.thread j

/-- What holds of the phases that have not changed holds if it does for the caller. -/
theorem Others.forall {Q : RevokePhase → RevokePhase → Prop} (h : Others i p p')
    (hself : Q (p.thread i).phase (p'.thread i).phase) (hsame : ∀ phase, Q phase phase) (j : ι) :
    Q (p.thread j).phase (p'.thread j).phase := by
  by_cases hij : j = i
  · subst hij
    exact hself
  · rw [h j hij]
    exact hsame _

theorem Once.of_passed_iff (h : Once handle nodeId log p) (hothers : Others i p p')
    (hnode : p'.shared.nodeId = p.shared.nodeId)
    (hpassed : (p'.thread i).phase.Passed ↔ (p.thread i).phase.Passed)
    (hactive : p.state handle ≠ .active → p'.state handle ≠ .active)
    (hpending : ∀ j, (p'.thread j).phase.Pending → p'.state handle = .revoking)
    (hlog : log ++ events = [] ∨ log ++ events = [.revoke nodeId handle] ∧
      ∃ j, (p'.thread j).phase.Announced) : Once handle nodeId (log ++ events) p' := by
  have hiff : ∀ j, (p'.thread j).phase.Passed ↔ (p.thread j).phase.Passed :=
    hothers.forall (Q := fun phase phase' => phase'.Passed ↔ phase.Passed) hpassed
      (fun _ => Iff.rfl)
  constructor
  · intro j k hj hk
    exact h.alone j k ((hiff j).mp hj) ((hiff k).mp hk)
  · intro j hj
    exact hactive (h.revoked j ((hiff j).mp hj))
  · exact hpending
  · exact hnode.trans h.nodeId_eq
  · exact hlog

theorem Once.log_append_nil (h : Once handle nodeId log p) (hothers : Others i p p')
    (hannounced : (p.thread i).phase.Announced → (p'.thread i).phase.Announced) :
    log ++ [] = [] ∨ log ++ [] = [.revoke nodeId handle] ∧
      ∃ j, (p'.thread j).phase.Announced := by
  rw [List.append_nil]
  rcases h.log_eq with hnil | ⟨hone, j, hj⟩
  · exact Or.inl hnil
  · exact Or.inr ⟨hone, j, hothers.forall (Q := fun phase phase' =>
      phase.Announced → phase'.Announced) hannounced (fun _ => id) j hj⟩

theorem Once.move (h : Once handle nodeId log p) (hothers : Others i p p')
    (hnode : p'.shared.nodeId = p.shared.nodeId)
    (hmove : Move (.revoke p.shared.nodeId handle) (p.state handle) (p'.state handle)
      (p.thread i).phase (p'.thread i).phase events) : Once handle nodeId (log ++ events) p' := by
  cases hmove with
  | quiet hs hevents hpassed hpending hannounced =>
    subst hevents
    apply h.of_passed_iff hothers hnode hpassed
    · rw [hs]
      exact id
    · intro j hj
      rw [hs]
      exact h.pending j (hothers.forall (Q := fun phase phase' => phase'.Pending → phase.Pending)
        hpending (fun _ => id) j hj)
    · exact h.log_append_nil hothers hannounced
  | exchange hs hs' hevents hphase hphase' =>
    -- while the region is active, nobody is past the exchange
    have hnone : ∀ j, ¬ (p.thread j).phase.Passed := fun j hj => h.revoked j hj hs
    have hself : ∀ j, (p'.thread j).phase.Passed → j = i := by
      intro j hj
      by_contra hij
      rw [hothers j hij] at hj
      exact hnone j hj
    subst hevents
    constructor
    · intro j k hj hk
      rw [hself j hj, hself k hk]
    · intro j _
      rw [hs']
      nofun
    · intro j _
      exact hs'
    · exact hnode.trans h.nodeId_eq
    · rcases h.log_eq with hnil | ⟨-, j, hj⟩
      · exact Or.inl (by rw [hnil, List.append_nil])
      · exact absurd hj.1 (hnone j)
  | announce hs hevents hphase hphase' =>
    have hpassed : (p.thread i).phase.Passed := by
      rw [hphase]
      trivial
    have hrevoking : p.state handle = .revoking := by
      apply h.pending i
      rw [hphase]
      trivial
    have hnil : log = [] := by
      rcases h.log_eq with hnil | ⟨-, j, hj⟩
      · exact hnil
      · obtain rfl := h.alone j i hj.1 hpassed
        exact absurd hphase hj.2
    apply h.of_passed_iff hothers hnode (iff_of_true hphase'.1 hpassed)
    · rw [hs]
      exact id
    · intro _ _
      rw [hs]
      exact hrevoking
    · rw [hnil, List.nil_append, ← h.nodeId_eq]
      rcases hevents with hevents | hevents
      · exact Or.inl hevents
      · exact Or.inr ⟨hevents, i, hphase'⟩
  | store hs' hevents hphase hannounced hphase' hdone =>
    subst hevents
    apply h.of_passed_iff hothers hnode (iff_of_true hphase'.1 hannounced.1)
    · rw [hs']
      nofun
    · intro j hj
      by_cases hij : j = i
      · subst hij
        exact absurd hj hdone
      · rw [hothers j hij] at hj
        exact absurd (h.alone j i hj.passed hannounced.1) hij
    · exact h.log_append_nil hothers (fun _ => hphase')

theorem Once.forward (h : Once handle nodeId log p)
    (hmove : Move (.revoke p.shared.nodeId handle) (p.state handle) (p'.state handle)
      (p.thread i).phase (p'.thread i).phase events) :
    Forward (p.state handle) (p'.state handle) := by
  cases hmove with
  | quiet hs => exact Or.inl hs
  | exchange hs hs' => exact Or.inr (Or.inl ⟨hs, hs'⟩)
  | announce hs => exact Or.inl hs
  | store hs' _ hphase => exact Or.inr (Or.inr ⟨h.pending i hphase, hs'⟩)

end Move

section Runs
variable [DecidableEq ι] {nodeId : UInt16} {log : List MrPublishEvent} {p : Callers ι}

theorem others_turn (p : Callers ι) (i : ι) (timedOut : Bool) :
    Others i p (p.turn i (revokeStep handle channel timedOut)).1 :=
  fun _ hij => Threads.Pool.turn_thread_ne hij

theorem move_turn (p : Callers ι) (i : ι) (timedOut : Bool) :
    Move (.revoke p.shared.nodeId handle) (p.state handle)
      (state handle (p.turn i (revokeStep handle channel timedOut)).1) (p.thread i).phase
      ((p.turn i (revokeStep handle channel timedOut)).1.thread i).phase
      (p.turn i (revokeStep handle channel timedOut)).2 := by
  rw [Threads.Pool.turn_thread_self]
  exact move_revokeStep timedOut p.shared (p.thread i)

theorem state_inflight (p : Callers ι) (count : ℤ) :
    (p.step handle channel (.inflight count)).1.state handle = p.state handle := by
  simp [step, state, MrTable.inflightAdd]

theorem Once.step (h : Once handle nodeId log p) (input : RevokeInput ι) :
    Once handle nodeId (log ++ (p.step handle channel input).2)
      (p.step handle channel input).1 := by
  cases input with
  | turn i timedOut =>
    exact h.move (others_turn p i timedOut) (nodeId_revokeStep timedOut p.shared (p.thread i))
      (move_turn p i timedOut)
  | inflight count =>
    have hstate : (p.step handle channel (.inflight count)).1.state handle = p.state handle :=
      state_inflight p count
    constructor
    · exact h.alone
    · intro i hi
      rw [hstate]
      exact h.revoked i hi
    · intro i hi
      rw [hstate]
      exact h.pending i hi
    · exact h.nodeId_eq
    · simpa [Callers.step] using h.log_eq

theorem Once.forward_step (h : Once handle nodeId log p) (input : RevokeInput ι) :
    Forward (p.state handle) ((p.step handle channel input).1.state handle) := by
  cases input with
  | turn i timedOut => exact h.forward (move_turn p i timedOut)
  | inflight count => exact Or.inl (state_inflight p count)

theorem settled_step (h : ∀ i, (p.thread i).phase.Settled) (input : RevokeInput ι) (i : ι) :
    ((p.step handle channel input).1.thread i).phase.Settled := by
  cases input with
  | turn j timedOut =>
    by_cases hij : i = j
    · subst hij
      rw [step, Threads.Pool.turn_thread_self]
      exact settled_revokeStep timedOut p.shared (h i)
    · rw [step, Threads.Pool.turn_thread_ne hij]
      exact h i
  | inflight count => exact h i

end Runs

end Callers

def RevokeInput.isTurn {ι : Type} [DecidableEq ι] (i : ι) : RevokeInput ι → Bool
  | .turn j _ => decide (j = i)
  | .inflight _ => false

namespace Callers

variable {ι : Type} [DecidableEq ι]

theorem turnsLeft_run (p : Callers ι) (i : ι) (inputs : List (RevokeInput ι)) :
    ((Runs.run (step handle channel) p inputs).1.thread i).phase.turnsLeft ≤
      (p.thread i).phase.turnsLeft - inputs.countP (RevokeInput.isTurn i) := by
  induction inputs generalizing p with
  | nil => exact le_rfl
  | cons input inputs ih =>
    rw [Runs.run_cons]
    refine (ih _).trans ?_
    cases input with
    | inflight count =>
      rw [List.countP_cons_of_neg (by simp [RevokeInput.isTurn])]
      exact le_rfl
    | turn j timedOut =>
      by_cases hij : i = j
      · subst hij
        have hturn :
            (revokeStep handle channel timedOut p.shared (p.thread i)).2.1.phase.turnsLeft ≤
              (p.thread i).phase.turnsLeft - 1 :=
          turnsLeft_revokeStep timedOut p.shared (p.thread i)
        rw [List.countP_cons_of_pos (by simp [RevokeInput.isTurn]), step,
          Threads.Pool.turn_thread_self]
        omega
      · rw [List.countP_cons_of_neg (by simp [RevokeInput.isTurn, Ne.symm hij]), step,
          Threads.Pool.turn_thread_ne hij]

theorem deregister_alone (p : Callers ι) {i : ι} (timedOut : Bool)
    (hstart : p.thread i = ⟨.deregister, .start⟩) :
    let q := (Runs.run (step handle channel) p (List.replicate 4 (.turn i timedOut))).1
    (p.shared.deregister handle = .ok q.shared ∧ (q.thread i).phase = .returned (.ok ())) ∨
      ∃ e, p.shared.deregister handle = .error e ∧ q.shared = p.shared ∧
        (q.thread i).phase = .returned (.error e) := by
  cases hlookup : p.shared.entries.lookup handle with
  | none =>
    right
    refine ⟨.addrInvalid, ?_, ?_, ?_⟩
    · simp only [MrTable.deregister, hlookup]
    · simp [List.replicate, step, Threads.Pool.turn, revokeStep, hstart, hlookup]
    · simp [List.replicate, step, Threads.Pool.turn, revokeStep, hstart, hlookup]
  | some e =>
    by_cases hactive : (p.shared.cells handle).state = .active
    · left
      rw [p.shared.deregister_eq hlookup hactive]
      simp [List.replicate, step, Threads.Pool.turn, revokeStep, hstart, hlookup, hactive]
    · right
      refine ⟨alreadyRevoked, ?_, ?_, ?_⟩
      · simp [MrTable.deregister, hlookup, hactive, alreadyRevoked]
      · simp [List.replicate, step, Threads.Pool.turn, revokeStep, hstart, hlookup, hactive]
      · simp [List.replicate, step, Threads.Pool.turn, revokeStep, hstart, hlookup, hactive]

/-- However the calls interleave, one gets past the exchange at most and the others
return an error; all have returned after seven turns of their own. -/
theorem deregistered_once (handle : UInt32) (channel : Bool) (t : MrTable)
    (kind : ι → DeregisterKind) (inputs : List (RevokeInput ι)) :
    let run := Runs.run (step handle channel) (new t kind) inputs
    (∀ i j, (run.1.thread i).phase.Passed → (run.1.thread j).phase.Passed → i = j) ∧
      (∀ i result, (run.1.thread i).phase = .returned result →
        (run.1.thread i).phase.Passed ∨ result = .error .addrInvalid ∨
          result = .error alreadyRevoked) ∧
      (∀ i, 7 ≤ inputs.countP (RevokeInput.isTurn i) →
        ∃ result, (run.1.thread i).phase = .returned result) ∧
      (run.2 = [] ∨ run.2 = [.revoke t.nodeId handle]) ∧
      Runs.Meets (step handle channel)
        (fun p _ input => Forward (p.state handle) ((p.step handle channel input).1.state handle))
        (new t kind) [] inputs := by
  intro run
  have hinit : ∀ i, ((new t kind).thread i).phase.Settled := by
    intro i result hphase
    cases hphase
  have hrun : Once handle t.nodeId run.2 run.1 ∧ ∀ i, (run.1.thread i).phase.Settled :=
    Runs.run_always
      (I := fun (p : Callers ι) log => Once handle t.nodeId log p ∧ ∀ i, (p.thread i).phase.Settled)
      (fun p _ input h => ⟨h.1.step input, settled_step h.2 input⟩) ⟨once_new t kind, hinit⟩ inputs
  obtain ⟨honce, hsettled⟩ := hrun
  refine ⟨honce.alone, fun i => hsettled i, ?_, honce.log_eq.imp id And.left, ?_⟩
  · intro i hturns
    have hleft : (run.1.thread i).phase.turnsLeft ≤ 7 - inputs.countP (RevokeInput.isTurn i) :=
      turnsLeft_run (new t kind) i inputs
    have hzero : (run.1.thread i).phase.turnsLeft = 0 := by omega
    cases hphase : (run.1.thread i).phase with
    | returned result => exact ⟨result, rfl⟩
    | _ => simp [hphase, RevokePhase.turnsLeft] at hzero
  · exact Runs.Meets.of_invariant (C := fun _ _ _ => True)
      (I := fun (p : Callers ι) log => Once handle t.nodeId log p)
      (fun p _ input h _ => h.forward_step input) (fun p _ input h _ => h.step input)
      (once_new t kind) (Runs.meets_of_forall_mem fun _ _ => trivial)

end Callers

end UniBus.Control
