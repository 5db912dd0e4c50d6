import Mathlib

/-!
# Updates on their way to a replica

An update sets or unsets the value of one key. What a list of updates does to a
key depends only on the last update of that key, so updates of different keys
commute, and so do equal ones.
-/
namespace Updates

inductive Update (K V : Type*)
  | set (k : K) (v : V)
  | unset (k : K)
  deriving DecidableEq

variable {K V : Type*}

namespace Update

def key : Update K V → K
  | set k _ => k
  | unset k => k

/-- What the key holds after the update. -/
def value : Update K V → Option V
  | set _ v => some v
  | unset _ => none

theorem eq_set {u : Update K V} {v : V} (h : u.value = some v) : u = set u.key v := by
  cases u with
  | set k v' => cases h; rfl
  | unset k => cases h

theorem eq_unset {u : Update K V} (h : u.value = none) : u = unset u.key := by
  cases u with
  | set k v => cases h
  | unset k => rfl

end Update

variable [DecidableEq K] {k : K} {u : Update K V} {us us' : List (Update K V)} {x : Option V}

/-- What a key that holds `x` holds after the updates. -/
def effect (k : K) (us : List (Update K V)) (x : Option V) : Option V :=
  us.foldl (fun x u => if u.key = k then u.value else x) x

@[simp] theorem effect_nil : effect k ([] : List (Update K V)) x = x := rfl

theorem effect_cons :
    effect k (u :: us) x = effect k us (if u.key = k then u.value else x) := rfl

theorem effect_append : effect k (us ++ us') x = effect k us' (effect k us x) :=
  List.foldl_append

theorem effect_concat :
    effect k (us ++ [u]) x = if u.key = k then u.value else effect k us x := effect_append

theorem effect_of_forall_ne (h : ∀ u ∈ us, u.key ≠ k) : effect k us x = x := by
  induction us with
  | nil => rfl
  | cons u us ih =>
    rw [effect_cons, if_neg (h u List.mem_cons_self)]
    exact ih fun u' hu' => h u' (List.mem_cons_of_mem _ hu')

theorem effect_of_forall_eq (h : ∀ u ∈ us, u.key = k → u.value = x) : effect k us x = x := by
  induction us with
  | nil => rfl
  | cons u us ih =>
    have hu := h u List.mem_cons_self
    have hx : (if u.key = k then u.value else x) = x := by
      split_ifs with hk
      · exact hu hk
      · rfl
    rw [effect_cons, hx]
    exact ih fun u' hu' => h u' (List.mem_cons_of_mem _ hu')

theorem effect_of_mem (hu : u ∈ us) (hk : u.key = k)
    (h : ∀ u' ∈ us, u'.key = k → u'.value = u.value) : effect k us x = u.value := by
  obtain ⟨before, after, rfl⟩ := List.append_of_mem hu
  rw [effect_append, effect_cons, if_pos hk]
  exact effect_of_forall_eq fun u' hu' => h u' (by simp [hu'])

/-- Either the start is overwritten or it is kept. -/
theorem effect_const_or_id (k : K) (us : List (Update K V)) :
    (∃ y, ∀ x, effect k us x = y) ∨ ∀ x, effect k us x = x := by
  induction us with
  | nil => exact Or.inr fun _ => rfl
  | cons u us ih =>
    rcases ih with ⟨y, hy⟩ | hid
    · exact Or.inl ⟨y, fun x => hy _⟩
    · by_cases hk : u.key = k
      · exact Or.inl ⟨u.value, fun x => by rw [effect_cons, if_pos hk, hid]⟩
      · exact Or.inr fun x => by rw [effect_cons, if_neg hk, hid]

/-- Without its first update a list has the same effect on a key, or none. -/
theorem effect_tail (k : K) (u : Update K V) (us : List (Update K V)) (x : Option V) :
    effect k us x = effect k (u :: us) x ∨ effect k us x = x := by
  rcases effect_const_or_id k us with ⟨y, hy⟩ | hid
  · exact Or.inl ((hy _).trans (hy _).symm)
  · exact Or.inr (hid x)

/-- An update may be moved over updates of its key that agree with it. -/
theorem effect_move (h : ∀ u' ∈ us, u'.key = u.key → u'.value = u.value) :
    effect k (u :: us) x = effect k (us ++ [u]) x := by
  rw [effect_concat, effect_cons]
  by_cases hk : u.key = k
  · rw [if_pos hk, if_pos hk]
    exact effect_of_forall_eq fun u' hu' hk' => h u' hu' (hk'.trans hk.symm)
  · rw [if_neg hk, if_neg hk]

theorem effect_replicate {n : ℕ} (hn : 0 < n) :
    effect k (List.replicate n u) x = effect k [u] x := by
  obtain ⟨m, rfl⟩ := Nat.exists_eq_succ_of_ne_zero hn.ne'
  by_cases hk : u.key = k
  · have hu : u ∈ List.replicate m.succ u := by simp
    rw [effect_of_mem hu hk fun u' hu' _ => by rw [List.eq_of_mem_replicate hu']]
    simp [effect, hk]
  · rw [effect_of_forall_ne, effect_of_forall_ne]
    · simpa using hk
    · intro u' hu'
      rwa [List.eq_of_mem_replicate hu']

end Updates
