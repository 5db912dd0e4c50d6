import Mathlib.Algebra.BigOperators.Group.Multiset.Basic
import Mathlib.Tactic

/-!
# Unreliable networks

The messages in flight form a multiset: they have no order, so any of them may
arrive next. A fault loses a message or copies one. It never makes a message up.
-/
namespace Network

inductive Fault (α : Type*)
  | drop (a : α)
  | duplicate (a : α)

variable {α : Type*} [DecidableEq α]

namespace Fault

/-- The messages in flight after a fault; one that is not in flight is not hit. -/
def apply (net : Multiset α) : Fault α → Multiset α
  | drop a => net.erase a
  | duplicate a => if a ∈ net then a ::ₘ net else net

theorem mem_of_mem_apply {net : Multiset α} {f : Fault α} {b : α} (h : b ∈ f.apply net) :
    b ∈ net := by
  cases f with
  | drop a => exact Multiset.mem_of_mem_erase h
  | duplicate a =>
    simp only [apply] at h
    split_ifs at h with ha
    · rcases Multiset.mem_cons.mp h with rfl | h
      · exact ha
      · exact h
    · exact h

/-- A weight in flight does not grow unless a message that has some is copied. -/
theorem sum_apply_le (weight : α → ℕ) {net : Multiset α} {f : Fault α}
    (h : ∀ a ∈ net, f = duplicate a → weight a = 0) :
    ((f.apply net).map weight).sum ≤ (net.map weight).sum := by
  cases f with
  | drop a =>
    by_cases ha : a ∈ net
    · have hsum : weight a + ((net.erase a).map weight).sum = (net.map weight).sum :=
        Multiset.sum_map_erase ha
      rw [apply]
      omega
    · rw [apply, Multiset.erase_of_notMem ha]
  | duplicate a =>
    by_cases ha : a ∈ net
    · rw [apply, if_pos ha, Multiset.map_cons, Multiset.sum_cons, h a ha rfl, Nat.zero_add]
    · rw [apply, if_neg ha]

/-- It does not shrink unless such a message is lost. -/
theorem le_sum_apply (weight : α → ℕ) {net : Multiset α} {f : Fault α}
    (h : ∀ a ∈ net, f = drop a → weight a = 0) :
    (net.map weight).sum ≤ ((f.apply net).map weight).sum := by
  cases f with
  | drop a =>
    by_cases ha : a ∈ net
    · have hsum : weight a + ((net.erase a).map weight).sum = (net.map weight).sum :=
        Multiset.sum_map_erase ha
      rw [h a ha rfl] at hsum
      rw [apply]
      omega
    · rw [apply, Multiset.erase_of_notMem ha]
  | duplicate a =>
    by_cases ha : a ∈ net
    · rw [apply, if_pos ha, Multiset.map_cons, Multiset.sum_cons]
      omega
    · rw [apply, if_neg ha]

end Fault

end Network
