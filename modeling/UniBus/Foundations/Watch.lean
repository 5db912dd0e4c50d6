import UniBus.Foundations.Runs

/-!
# A channel that keeps only the latest value

A send overwrites the stored value and moves the version on. The receiver waits
until the version has moved past the one it saw last, then borrows whatever is
stored, and handles it before it waits again. Sends may fall between any two of
its steps.
-/
namespace Watch

variable {α : Type*}

/-- Where the receiver stands in its loop. -/
inductive Phase
  | waiting
  | notified
  | handling
  deriving DecidableEq, Repr

structure Channel (α : Type*) where
  value : α
  version : ℕ
  seen : ℕ
  phase : Phase

inductive Action (α : Type*)
  | send (a : α)
  | changed
  | borrow
  | finish

inductive Event (α : Type*)
  | sent (a : α)
  | handled (a : α)
  deriving DecidableEq, Repr

/-- The initial value counts as seen. -/
def Channel.new (a : α) : Channel α := ⟨a, 0, 0, .waiting⟩

/-- An action of the receiver that is not due changes nothing. -/
def Channel.step (c : Channel α) : Action α → Channel α × List (Event α)
  | .send a => ({ c with value := a, version := c.version + 1 }, [.sent a])
  | .changed =>
    if c.phase = .waiting ∧ c.version ≠ c.seen then
      ({ c with seen := c.version, phase := .notified }, [])
    else (c, [])
  | .borrow =>
    if c.phase = .notified then ({ c with phase := .handling }, [.handled c.value]) else (c, [])
  | .finish => if c.phase = .handling then ({ c with phase := .waiting }, []) else (c, [])

def sentOf (log : List (Event α)) : List α :=
  log.filterMap fun
    | .sent a => some a
    | .handled _ => none

def handledOf (log : List (Event α)) : List α :=
  log.filterMap fun
    | .handled a => some a
    | .sent _ => none

@[simp] theorem sentOf_append (log log' : List (Event α)) :
    sentOf (log ++ log') = sentOf log ++ sentOf log' := List.filterMap_append

@[simp] theorem handledOf_append (log log' : List (Event α)) :
    handledOf (log ++ log') = handledOf log ++ handledOf log' := List.filterMap_append

/-- The receiver has borrowed the stored value. -/
def Channel.Idle (c : Channel α) : Prop := c.phase ≠ .notified ∧ c.seen = c.version

instance (c : Channel α) : Decidable c.Idle := inferInstanceAs (Decidable (_ ∧ _))

/-- The stored value, unless it has been borrowed. -/
def Channel.pending (c : Channel α) : List α := if c.Idle then [] else [c.value]

/-- Everything sent has been handled in order, up to the value that is stored. -/
structure Delivered (c : Channel α) (log : List (Event α)) : Prop where
  eq : sentOf log = handledOf log ++ c.pending
  notified : c.phase = .notified → c.seen = c.version

namespace Delivered

variable {c : Channel α} {log : List (Event α)}

theorem send (h : Delivered c log) (hidle : c.Idle) (a : α) :
    Delivered (c.step (.send a)).1 (log ++ (c.step (.send a)).2) := by
  obtain ⟨hphase, hseen⟩ := hidle
  have hpending : c.pending = [] := if_pos ⟨hphase, hseen⟩
  have hnext : (c.step (.send a)).1.pending = [a] := by
    apply if_neg
    rintro ⟨-, hcaught⟩
    exact Nat.succ_ne_self c.version (hcaught.symm.trans hseen)
  constructor
  · rw [sentOf_append, handledOf_append, h.eq, hpending, hnext]
    simp [Channel.step, sentOf, handledOf]
  · exact fun hnotified => absurd hnotified hphase

theorem changed (h : Delivered c log) :
    Delivered (c.step .changed).1 (log ++ (c.step .changed).2) := by
  rw [Channel.step]
  split_ifs with hdue
  · have hpending : c.pending = [c.value] :=
      if_neg fun hidle => hdue.2 hidle.2.symm
    constructor
    · rw [List.append_nil, h.eq, hpending]
      simp [Channel.pending, Channel.Idle]
    · exact fun _ => rfl
  · rwa [List.append_nil]

theorem borrow (h : Delivered c log) :
    Delivered (c.step .borrow).1 (log ++ (c.step .borrow).2) := by
  rw [Channel.step]
  split_ifs with hdue
  · have hpending : c.pending = [c.value] := if_neg fun hidle => hidle.1 hdue
    constructor
    · rw [sentOf_append, handledOf_append, h.eq, hpending]
      simp [Channel.pending, Channel.Idle, sentOf, handledOf, h.notified hdue]
    · intro hnotified
      cases hnotified
  · rwa [List.append_nil]

theorem finish (h : Delivered c log) :
    Delivered (c.step .finish).1 (log ++ (c.step .finish).2) := by
  rw [Channel.step]
  split_ifs with hdue
  · constructor
    · rw [List.append_nil, h.eq]
      simp [Channel.pending, Channel.Idle, hdue]
    · intro hnotified
      cases hnotified
  · rwa [List.append_nil]

theorem handled_eq_sent (h : Delivered c log) (hidle : c.Idle) : handledOf log = sentOf log := by
  rw [h.eq, Channel.pending, if_pos hidle, List.append_nil]

end Delivered

theorem delivered_new (a : α) : Delivered (Channel.new a) [] := by
  constructor
  · simp [Channel.new, Channel.pending, Channel.Idle, sentOf, handledOf]
  · intro hnotified
    cases hnotified

end Watch
