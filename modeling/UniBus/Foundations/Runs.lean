import Mathlib.Data.List.Basic
import Mathlib.Tactic.Basic

/-!
# Runs of a step function with outputs

A component is a step function: one input takes a state to the next state and
emits a list of outputs. A run folds the step over a list of inputs and keeps
the outputs in order. `Meets` says that every input satisfies a condition at
the moment it is taken, where the condition may read the state before the step
and the log of everything emitted so far. Every reachable state is the end of
some run, so an invariant is stated about the end of an arbitrary run.
-/
namespace Runs

variable {σ ι ω : Type*} (step : σ → ι → σ × List ω)

/-- The state and the emitted outputs after taking all inputs in order. -/
def run : σ → List ι → σ × List ω
  | s, [] => (s, [])
  | s, i :: is =>
    let next := step s i
    let rest := run next.1 is
    (rest.1, next.2 ++ rest.2)

@[simp] theorem run_nil (s : σ) : run step s [] = (s, []) := rfl

@[simp] theorem run_cons (s : σ) (i : ι) (is : List ι) :
    run step s (i :: is) =
      ((run step (step s i).1 is).1, (step s i).2 ++ (run step (step s i).1 is).2) := rfl

theorem run_append (s : σ) (is js : List ι) :
    run step s (is ++ js) =
      ((run step (run step s is).1 js).1,
        (run step s is).2 ++ (run step (run step s is).1 js).2) := by
  induction is generalizing s with
  | nil => simp
  | cons i is ih => simp [ih, List.append_assoc]

theorem log_singleton (s : σ) (i : ι) : (run step s [i]).2 = (step s i).2 := by
  simp

theorem length_log_le (hstep : ∀ s i, (step s i).2.length ≤ 1) (s : σ) (is : List ι) :
    (run step s is).2.length ≤ is.length := by
  induction is generalizing s with
  | nil => simp
  | cons i is ih =>
    rw [run_cons, List.length_append, List.length_cons, Nat.add_comm]
    exact Nat.add_le_add (ih _) (hstep s i)

theorem log_cons {s s' : σ} {i : ι} {is : List ι} {events log : List ω}
    (hstep : step s i = (s', events)) (his : (run step s' is).2 = log) :
    (run step s (i :: is)).2 = events ++ log := by
  rw [run_cons, hstep, his]

/-- Every input meets `C` at the state and the log it arrives in. -/
def Meets (C : σ → List ω → ι → Prop) : σ → List ω → List ι → Prop
  | _, _, [] => True
  | s, log, i :: is => C s log i ∧ Meets C (step s i).1 (log ++ (step s i).2) is

variable {step} {C D : σ → List ω → ι → Prop} {I : σ → List ω → Prop} {s : σ} {log : List ω}
  {is : List ι}

theorem Meets.mono (h : ∀ s log i, C s log i → D s log i) (hm : Meets step C s log is) :
    Meets step D s log is := by
  induction is generalizing s log with
  | nil => trivial
  | cons i is ih => exact ⟨h _ _ _ hm.1, ih hm.2⟩

theorem Meets.and (hC : Meets step C s log is) (hD : Meets step D s log is) :
    Meets step (fun s log i => C s log i ∧ D s log i) s log is := by
  induction is generalizing s log with
  | nil => trivial
  | cons i is ih => exact ⟨⟨hC.1, hD.1⟩, ih hC.2 hD.2⟩

theorem Meets.cons {s s' : σ} {log events : List ω} {i : ι} (hstep : step s i = (s', events))
    (hi : C s log i) (his : Meets step C s' (log ++ events) is) : Meets step C s log (i :: is) := by
  refine ⟨hi, ?_⟩
  rw [hstep]
  exact his

theorem Meets.split {is js : List ι} (h : Meets step C s log (is ++ js)) :
    Meets step C s log is ∧ Meets step C (run step s is).1 (log ++ (run step s is).2) js := by
  induction is generalizing s log with
  | nil => exact ⟨trivial, by simpa using h⟩
  | cons i is ih =>
    obtain ⟨hfirst, hsecond⟩ := ih h.2
    exact ⟨⟨h.1, hfirst⟩, by simpa [List.append_assoc] using hsecond⟩

theorem meets_of_forall_mem {C : ι → Prop} (h : ∀ i ∈ is, C i) :
    Meets step (fun _ _ i => C i) s log is := by
  induction is generalizing s log with
  | nil => trivial
  | cons i is ih =>
    exact ⟨h i (by simp), ih fun j hj => h j (by simp [hj])⟩

/-- What one admissible step preserves, a whole admissible run preserves. -/
theorem run_invariant
    (hstep : ∀ s log i, I s log → C s log i → I (step s i).1 (log ++ (step s i).2)) (hs : I s log)
    (hm : Meets step C s log is) :
    I (run step s is).1 (log ++ (run step s is).2) := by
  induction is generalizing s log with
  | nil => simpa using hs
  | cons i is ih =>
    have h := ih (hstep s log i hs hm.1) hm.2
    simpa [List.append_assoc] using h

/-- What every step preserves, every run preserves. -/
theorem run_always (hstep : ∀ s log i, I s log → I (step s i).1 (log ++ (step s i).2))
    (hs : I s log) (is : List ι) :
    I (run step s is).1 (log ++ (run step s is).2) :=
  run_invariant (fun s log i h _ => hstep s log i h) hs
    (meets_of_forall_mem (C := fun _ => True) fun _ _ => trivial)

/-- Along a run that keeps an invariant, one condition on the inputs gives another. -/
theorem Meets.of_invariant (hinput : ∀ s log i, I s log → C s log i → D s log i)
    (hstep : ∀ s log i, I s log → C s log i → I (step s i).1 (log ++ (step s i).2)) (hs : I s log)
    (hm : Meets step C s log is) :
    Meets step D s log is := by
  induction is generalizing s log with
  | nil => trivial
  | cons i is ih => exact ⟨hinput s log i hs hm.1, ih (hstep s log i hs hm.1) hm.2⟩

/-- Conditions that agree wherever an invariant holds admit the same runs. -/
theorem meets_iff (hiff : ∀ s log i, I s log → (C s log i ↔ D s log i))
    (hstep : ∀ s log i, I s log → C s log i → I (step s i).1 (log ++ (step s i).2)) (hs : I s log)
    (is : List ι) :
    Meets step C s log is ↔ Meets step D s log is := by
  constructor
  · exact Meets.of_invariant (fun s log i h => (hiff s log i h).mp) hstep hs
  · exact Meets.of_invariant (fun s log i h => (hiff s log i h).mpr)
      (fun s log i h hd => hstep s log i h ((hiff s log i h).mpr hd)) hs

/-- A condition that every earlier log meets as soon as a later one does is met along
the whole run as soon as its last log meets it. -/
theorem meets_of_log {P : List ω → Prop} (hearlier : ∀ log events, P (log ++ events) → P log)
    (h : P (log ++ (run step s is).2)) :
    Meets step (fun s log i => P (log ++ (step s i).2)) s log is := by
  induction is generalizing s log with
  | nil => trivial
  | cons i is ih =>
    rw [run_cons, ← List.append_assoc] at h
    exact ⟨hearlier _ _ h, ih h⟩

/-- A run whose outputs are those that a function of the log prescribes. -/
theorem log_eq_foldl {spec : List ω → ι → List ω}
    (hstep : ∀ s log i, I s log → C s log i → I (step s i).1 (log ++ (step s i).2))
    (hspec : ∀ s log i, I s log → C s log i → (step s i).2 = spec log i) (hs : I s log)
    (hm : Meets step C s log is) :
    log ++ (run step s is).2 = is.foldl (fun log i => log ++ spec log i) log := by
  induction is generalizing s log with
  | nil => exact List.append_nil log
  | cons i is ih =>
    rw [run_cons, ← List.append_assoc, ih (hstep s log i hs hm.1) hm.2, List.foldl_cons,
      hspec s log i hs hm.1]

/-- All outputs of a run have a property just in case those of each step have it. -/
theorem forall_log_iff {Q : ω → Prop} :
    (∀ w ∈ (run step s is).2, Q w) ↔
      Meets step (fun s _ i => ∀ w ∈ (step s i).2, Q w) s log is := by
  induction is generalizing s log with
  | nil => simp [Meets]
  | cons i is ih =>
    rw [run_cons, List.forall_mem_append, Meets, ih]

/-! ## Logs -/

theorem append_split {log events before after : List ω} {ev : ω}
    (h : log ++ events = before ++ ev :: after) :
    (∃ rest, log = before ++ ev :: rest ∧ after = rest ++ events) ∨
      ∃ mid, before = log ++ mid ∧ events = mid ++ ev :: after := by
  rcases List.append_eq_append_iff.mp h with ⟨mid, hbefore, hevents⟩ | ⟨rest, hlog, hrest⟩
  · exact Or.inr ⟨mid, hbefore, hevents⟩
  · cases rest with
    | nil =>
      rw [List.append_nil] at hlog
      exact Or.inr ⟨[], by rw [hlog, List.append_nil], hrest.symm⟩
    | cons ev' rest =>
      cases hrest
      exact Or.inl ⟨rest, hlog, rfl⟩

theorem concat_split {log before after : List ω} {new ev : ω}
    (h : log ++ [new] = before ++ ev :: after) :
    (∃ rest, log = before ++ ev :: rest ∧ after = rest ++ [new]) ∨
      (before = log ∧ ev = new ∧ after = []) := by
  rcases append_split h with hold | ⟨mid, hbefore, hnew⟩
  · exact Or.inl hold
  · cases mid with
    | nil =>
      cases hnew
      exact Or.inr ⟨by rw [hbefore, List.append_nil], rfl, rfl⟩
    | cons _ mid => simp at hnew

theorem countP_eq_succ {κ : Type*} {key : ω → κ} (hnodup : (log.map key).Nodup) {p q : ω → Bool}
    {a : ω} (ha : a ∈ log) (hp : p a = true) (hq : q a = false)
    (hsame : ∀ b ∈ log, key b ≠ key a → q b = p b) : log.countP p = log.countP q + 1 := by
  obtain ⟨before, after, rfl⟩ := List.append_of_mem ha
  rw [List.map_append, List.map_cons, List.nodup_append, List.nodup_cons] at hnodup
  obtain ⟨-, ⟨hafter, -⟩, hbefore⟩ := hnodup
  have hleft : before.countP q = before.countP p := by
    apply List.countP_congr
    intro b hb
    have hne := hbefore (key b) (List.mem_map_of_mem hb) (key a) List.mem_cons_self
    rw [hsame b (by simp [hb]) hne]
  have hright : after.countP q = after.countP p := by
    apply List.countP_congr
    intro b hb
    have hne : key b ≠ key a := fun heq => hafter (heq ▸ List.mem_map_of_mem hb)
    rw [hsame b (by simp [hb]) hne]
  rw [List.countP_append, List.countP_append, List.countP_cons_of_pos hp,
    List.countP_cons_of_neg (by simp [hq]), hleft, hright, Nat.add_assoc]

/-- Every entry satisfies `P` together with the log before it. -/
def Justified (P : List ω → ω → Prop) (log : List ω) : Prop :=
  ∀ before ev after, log = before ++ ev :: after → P before ev

variable {P : List ω → ω → Prop} {events : List ω}

theorem justified_nil : Justified P [] := by
  intro before ev after h
  simp at h

theorem Justified.left (h : Justified P (log ++ events)) : Justified P log := by
  intro before ev after heq
  exact h before ev (after ++ events) (by rw [heq, List.append_assoc, List.cons_append])

theorem Justified.append (h : Justified P log)
    (hevents : ∀ mid ev after, events = mid ++ ev :: after → P (log ++ mid) ev) :
    Justified P (log ++ events) := by
  intro before ev after heq
  rcases append_split heq with ⟨rest, hlog, -⟩ | ⟨mid, rfl, hnew⟩
  · exact h before ev rest hlog
  · exact hevents mid ev after hnew

theorem Justified.concat {ev : ω} (h : Justified P log) (hev : P log ev) :
    Justified P (log ++ [ev]) := by
  intro before ev' after heq
  rcases concat_split heq with ⟨rest, hlog, -⟩ | ⟨rfl, rfl, -⟩
  · exact h before ev' rest hlog
  · exact hev

theorem Justified.pair {ev ev' : ω} (h : Justified P log) (hev : P log ev)
    (hev' : P (log ++ [ev]) ev') : Justified P (log ++ [ev, ev']) := by
  have hsplit : log ++ [ev, ev'] = log ++ [ev] ++ [ev'] := by simp
  rw [hsplit]
  exact (h.concat hev).concat hev'

end Runs
