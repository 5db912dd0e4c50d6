import Mathlib

/-!
# Threads over a shared state

Each thread has a state of its own and takes turns with the others. A turn reads
and writes the shared state and the state of the thread that takes it.
-/
namespace Threads

structure Pool (ι σ τ : Type*) where
  shared : σ
  thread : ι → τ

namespace Pool

variable {ι σ τ ω : Type*} [DecidableEq ι]

/-- The turn `act` of the thread `i`. -/
def turn (p : Pool ι σ τ) (i : ι) (act : σ → τ → σ × τ × List ω) : Pool ι σ τ × List ω :=
  let out := act p.shared (p.thread i)
  (⟨out.1, Function.update p.thread i out.2.1⟩, out.2.2)

variable {p : Pool ι σ τ} {i : ι} {act : σ → τ → σ × τ × List ω}

@[simp] theorem turn_shared : (p.turn i act).1.shared = (act p.shared (p.thread i)).1 := rfl

@[simp] theorem turn_log : (p.turn i act).2 = (act p.shared (p.thread i)).2.2 := rfl

@[simp] theorem turn_thread_self :
    (p.turn i act).1.thread i = (act p.shared (p.thread i)).2.1 := Function.update_self ..

theorem turn_thread_ne {j : ι} (h : j ≠ i) : (p.turn i act).1.thread j = p.thread j :=
  Function.update_of_ne h ..

theorem turn_eq_self (h : act p.shared (p.thread i) = (p.shared, p.thread i, [])) :
    p.turn i act = (p, []) := by
  unfold turn
  rw [h]
  dsimp only
  rw [Function.update_eq_self]

/-! ## Counting threads -/

section Count
variable [Fintype ι] (P : τ → Prop) [DecidablePred P]

/-- How many threads are in a state with the property. -/
def count (p : Pool ι σ τ) : ℕ := (Finset.univ.filter fun i => P (p.thread i)).card

variable {P}

omit [DecidableEq ι] in
theorem count_pos (h : P (p.thread i)) : 0 < p.count P :=
  Finset.card_pos.mpr ⟨i, Finset.mem_filter.mpr ⟨Finset.mem_univ i, h⟩⟩

theorem count_turn :
    (p.turn i act).1.count P + (if P (p.thread i) then 1 else 0) =
      p.count P + (if P ((p.turn i act).1.thread i) then 1 else 0) := by
  have hsplit : ∀ q : Pool ι σ τ, q.count P =
      (if P (q.thread i) then 1 else 0) +
        ∑ j ∈ Finset.univ.erase i, if P (q.thread j) then 1 else 0 := by
    intro q
    rw [count, Finset.card_filter]
    exact (Finset.add_sum_erase _ (fun j => if P (q.thread j) then 1 else 0)
      (Finset.mem_univ i)).symm
  have hrest : (∑ j ∈ Finset.univ.erase i, if P ((p.turn i act).1.thread j) then 1 else 0) =
      ∑ j ∈ Finset.univ.erase i, if P (p.thread j) then 1 else 0 := by
    apply Finset.sum_congr rfl
    intro j hj
    rw [turn_thread_ne (Finset.ne_of_mem_erase hj)]
  rw [hsplit, hsplit p, hrest]
  omega

end Count
end Pool
end Threads
