import Mathlib

/-!
# Ranges handed out by a cursor

A table of ranges, each given by its start and its length, that were all taken
from a cursor that only moves up. Such ranges lie below the cursor and are
pairwise disjoint, whatever entries are dropped or replaced. With a cursor for each
key, the same holds of all ranges ever taken, key by key.
-/
namespace Ranges

def span (r : ℕ × ℕ) : Set ℕ := Set.Ico r.1 (r.1 + r.2)

theorem disjoint_span_of_le {r s : ℕ × ℕ} (h : r.1 + r.2 ≤ s.1) : Disjoint (span r) (span s) := by
  rw [Set.disjoint_left]
  intro i hr hs
  exact absurd (hr.2.trans_le h) (Nat.not_lt.mpr hs.1)

variable {K : Type*} {ranges ranges' : K → Option (ℕ × ℕ)} {cursor : ℕ}

/-- All ranges of the table lie below the cursor and are pairwise disjoint. -/
structure Packed (ranges : K → Option (ℕ × ℕ)) (cursor : ℕ) : Prop where
  below : ∀ k r, ranges k = some r → r.1 + r.2 ≤ cursor
  disjoint : ∀ k k' r r', k ≠ k' → ranges k = some r → ranges k' = some r' →
    Disjoint (span r) (span r')

theorem packed_empty : Packed (fun _ : K => none) cursor := by
  refine ⟨?_, ?_⟩
  · intro k r hr
    cases hr
  · intro k k' r r' _ hr
    cases hr

theorem Packed.of_le (h : Packed ranges cursor)
    (hsub : ∀ k r, ranges' k = some r → ranges k = some r) : Packed ranges' cursor :=
  ⟨fun k r hr => h.below k r (hsub k r hr),
    fun k k' r r' hk hr hr' => h.disjoint k k' r r' hk (hsub k r hr) (hsub k' r' hr')⟩

theorem Packed.raise {cursor' : ℕ} (h : Packed ranges cursor) (hle : cursor ≤ cursor') :
    Packed ranges cursor' :=
  ⟨fun k r hr => (h.below k r hr).trans hle, h.disjoint⟩

theorem Packed.eq_of_mem (h : Packed ranges cursor) {k k' : K} {r r' : ℕ × ℕ} {i : ℕ}
    (hr : ranges k = some r) (hr' : ranges k' = some r') (hi : i ∈ span r) (hi' : i ∈ span r') :
    k = k' := by
  by_contra hne
  exact Set.disjoint_left.mp (h.disjoint k k' r r' hne hr hr') hi hi'

theorem Packed.take [DecidableEq K] (h : Packed ranges cursor) (k : K) (len : ℕ)
    (hsub : ∀ k' r, k' ≠ k → ranges' k' = some r → ranges k' = some r)
    (hnew : ranges' k = some (cursor, len)) : Packed ranges' (cursor + len) := by
  refine ⟨?_, ?_⟩
  · intro k' r hr
    by_cases hk : k' = k
    · subst hk
      obtain rfl := Option.some.inj (hnew.symm.trans hr)
      exact le_rfl
    · have hbelow := h.below k' r (hsub k' r hk hr)
      omega
  · intro k₁ k₂ r₁ r₂ hne h₁ h₂
    by_cases hk₁ : k₁ = k
    · subst hk₁
      obtain rfl := Option.some.inj (hnew.symm.trans h₁)
      exact (disjoint_span_of_le (h.below k₂ r₂ (hsub k₂ r₂ (Ne.symm hne) h₂))).symm
    · by_cases hk₂ : k₂ = k
      · subst hk₂
        obtain rfl := Option.some.inj (hnew.symm.trans h₂)
        exact disjoint_span_of_le (h.below k₁ r₁ (hsub k₁ r₁ hk₁ h₁))
      · exact h.disjoint k₁ k₂ r₁ r₂ hne (hsub k₁ r₁ hk₁ h₁) (hsub k₂ r₂ hk₂ h₂)

/-! ## The log of all ranges -/

section Log
variable {α κ : Type*} {key : α → κ} {range : α → ℕ × ℕ} {log : List α}
  {cursors cursors' : κ → ℕ}

/-- The ranges of a log were taken from the cursors of their keys. -/
structure Logged (key : α → κ) (range : α → ℕ × ℕ) (log : List α) (cursors : κ → ℕ) : Prop where
  below : ∀ a ∈ log, (range a).1 + (range a).2 ≤ cursors (key a)
  disjoint : log.Pairwise fun a b => key a = key b → Disjoint (span (range a)) (span (range b))

theorem logged_nil : Logged key range [] cursors := by
  constructor
  · intro a ha
    cases ha
  · exact List.Pairwise.nil

theorem Logged.disjoint_of_le (h : Logged key range log cursors) {a : α} (ha : a ∈ log)
    {r : ℕ × ℕ} (hstart : cursors (key a) ≤ r.1) : Disjoint (span (range a)) (span r) :=
  disjoint_span_of_le ((h.below a ha).trans hstart)

/-- The next range starts at its cursor or behind it, and the cursor moves to its end. -/
theorem Logged.concat (h : Logged key range log cursors) {a : α}
    (hstart : cursors (key a) ≤ (range a).1) (hle : ∀ k, cursors k ≤ cursors' k)
    (hend : (range a).1 + (range a).2 ≤ cursors' (key a)) :
    Logged key range (log ++ [a]) cursors' := by
  constructor
  · intro b hb
    rcases List.mem_append.mp hb with hb | hb
    · exact (h.below b hb).trans (hle (key b))
    · obtain rfl := List.mem_singleton.mp hb
      exact hend
  · rw [List.pairwise_append]
    refine ⟨h.disjoint, List.pairwise_singleton _ a, ?_⟩
    intro b hb c hc hkey
    obtain rfl := List.mem_singleton.mp hc
    apply h.disjoint_of_le hb
    rw [hkey]
    exact hstart

theorem Logged.eq_of_mem (h : Logged key range log cursors) {a b : α} {i : ℕ} (ha : a ∈ log)
    (hb : b ∈ log) (hkey : key a = key b) (hia : i ∈ span (range a)) (hib : i ∈ span (range b)) :
    a = b := by
  by_contra hne
  have hsymm : Std.Symm fun a b : α =>
      key a = key b → Disjoint (span (range a)) (span (range b)) :=
    ⟨fun _ _ hdisjoint hkey => (hdisjoint hkey.symm).symm⟩
  have hdisjoint := h.disjoint.forall ha hb hne hkey
  exact Set.disjoint_left.mp hdisjoint hia hib

end Log

end Ranges
