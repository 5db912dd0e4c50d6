import Mathlib.Algebra.GroupWithZero.Nat
import Mathlib.Data.List.AList

/-!
# Finite maps with updates in place

Association lists of Mathlib with the two updates that a table under a lock
supports: changing the value of one key, and changing all values. A table that is
a plain list finds and changes the first element of a key.
-/
namespace Maps

variable {K V : Type*}

section
variable [DecidableEq K] {m : AList (fun _ : K => V)} {k k' : K} {v : V} {measure : V → ℕ}

theorem lookup_erase_of_some (h : (m.erase k').lookup k = some v) : m.lookup k = some v := by
  by_cases hk : k = k'
  · subst hk
    rw [AList.lookup_erase] at h
    cases h
  · rwa [AList.lookup_erase_ne hk] at h

theorem length_erase_add_one {k : K} (h : k ∈ m.entries.keys) :
    (m.erase k).entries.length + 1 = m.entries.length := by
  obtain ⟨v, before, after, -, hentries, herase⟩ := List.exists_of_kerase h
  have hlength : (m.erase k).entries.length = (before ++ after).length := congrArg _ herase
  rw [hlength, hentries, List.length_append, List.length_append, List.length_cons, Nat.add_assoc]

theorem lookup_foldl_erase (entries : List (Sigma fun _ : K => V)) (m : AList (fun _ : K => V))
    (k : K) :
    (entries.foldl (fun m e => m.erase e.1) m).lookup k =
      if k ∈ entries.keys then none else m.lookup k := by
  induction entries generalizing m with
  | nil => simp
  | cons e entries ih =>
    rw [List.foldl_cons, ih, List.keys_cons]
    by_cases hk : k = e.1
    · subst hk
      simp
    · simp [hk, AList.lookup_erase_ne hk]

/-- Changes the value of one key, if it is there. -/
def modify (m : AList (fun _ : K => V)) (k : K) (f : V → V) : AList (fun _ : K => V) :=
  match m.lookup k with
  | some v => m.insert k (f v)
  | none => m

theorem lookup_modify (m : AList (fun _ : K => V)) (k : K) (f : V → V) :
    (modify m k f).lookup k = (m.lookup k).map f := by
  unfold modify
  cases h : m.lookup k with
  | none => exact h
  | some v => exact AList.lookup_insert _

theorem lookup_modify_ne (hk : k ≠ k') (f : V → V) :
    (modify m k' f).lookup k = m.lookup k := by
  unfold modify
  cases m.lookup k' with
  | none => rfl
  | some v => exact AList.lookup_insert_ne hk

theorem lookup_modify_eq_some {f : V → V} (h : (modify m k' f).lookup k = some v) :
    ∃ old, m.lookup k = some old ∧ v = if k = k' then f old else old := by
  by_cases hk : k = k'
  · subst hk
    rw [lookup_modify, Option.map_eq_some_iff] at h
    obtain ⟨old, hold, rfl⟩ := h
    exact ⟨old, hold, (if_pos rfl).symm⟩
  · rw [lookup_modify_ne hk] at h
    exact ⟨v, h, (if_neg hk).symm⟩

/-! ## Sums over the values -/

/-- The sum of a measure over all values. -/
def total (measure : V → ℕ) (m : AList (fun _ : K => V)) : ℕ :=
  (m.entries.map fun e => measure e.2).sum

theorem total_erase {k : K} (h : m.lookup k = some v) :
    total measure m = measure v + total measure (m.erase k) := by
  have hkey : k ∈ m.entries.keys := AList.mem_keys.mp (AList.lookup_isSome.mp (by rw [h]; rfl))
  obtain ⟨v', l₁, l₂, hl₁, hentries, herase⟩ := List.exists_of_kerase hkey
  have hv : v' = v := by
    have hmem : (⟨k, v'⟩ : Sigma fun _ : K => V) ∈ m.entries := by simp [hentries]
    exact Option.some.inj ((AList.mem_lookup_iff.mpr hmem).symm.trans h)
  subst hv
  have htotal : total measure (m.erase k) = ((l₁ ++ l₂).map fun e => measure e.2).sum := by
    rw [← herase]
    rfl
  rw [htotal, total, hentries]
  simp only [List.map_append, List.map_cons, List.sum_append, List.sum_cons]
  omega

theorem total_insert (measure : V → ℕ) (m : AList (fun _ : K => V)) (k : K) (v : V) :
    total measure (m.insert k v) = measure v + total measure (m.erase k) := rfl

theorem total_erase_of_none {k : K} (h : m.lookup k = none) :
    total measure (m.erase k) = total measure m := by
  have hkey : k ∉ m.entries.keys := by
    rwa [← List.dlookup_isSome, Option.not_isSome_iff_eq_none]
  have herase : (m.erase k).entries = m.entries := List.kerase_of_notMem_keys hkey
  rw [total, herase, total]

/-- An insertion adds its own value and takes away the one it replaces. -/
theorem total_insert_add (measure : V → ℕ) (m : AList (fun _ : K => V)) (k : K) (v : V) :
    total measure (m.insert k v) + ((m.lookup k).map measure).getD 0 =
      measure v + total measure m := by
  rw [total_insert]
  cases h : m.lookup k with
  | none =>
    rw [total_erase_of_none h]
    rfl
  | some old =>
    rw [total_erase h, Option.map_some, Option.getD_some]
    omega

theorem total_modify {f : V → V} (hf : ∀ v, measure (f v) = measure v) (m : AList (fun _ : K => V))
    (k : K) : total measure (modify m k f) = total measure m := by
  unfold modify
  cases h : m.lookup k with
  | none => rfl
  | some v => rw [total_insert, hf, ← total_erase h]

end

def mapValues (f : K → V → V) (m : AList (fun _ : K => V)) : AList (fun _ : K => V) where
  entries := m.entries.map fun e => ⟨e.1, f e.1 e.2⟩
  nodupKeys := by
    have hkeys : (m.entries.map fun e => (⟨e.1, f e.1 e.2⟩ : Sigma fun _ : K => V)).keys =
        m.entries.keys := by
      simp [List.keys, List.map_map, Function.comp_def]
    rw [List.NodupKeys, hkeys]
    exact m.nodupKeys

theorem lookup_mapValues [DecidableEq K] (f : K → V → V) (m : AList (fun _ : K => V)) (k : K) :
    (mapValues f m).lookup k = (m.lookup k).map (f k) := by
  have hlist : ∀ l : List (Sigma fun _ : K => V),
      (l.map fun e => (⟨e.1, f e.1 e.2⟩ : Sigma fun _ : K => V)).dlookup k =
        (l.dlookup k).map (f k) := by
    intro l
    induction l with
    | nil => rfl
    | cons e l ih =>
      obtain ⟨k', v⟩ := e
      by_cases hk : k = k'
      · subst hk
        rw [List.map_cons, List.dlookup_cons_eq, List.dlookup_cons_eq]
        rfl
      · rw [List.map_cons, List.dlookup_cons_ne _ _ hk, List.dlookup_cons_ne _ _ hk, ih]
  exact hlist m.entries

/-! ## Lists searched by a key -/

section Keyed
variable {α κ : Type*} [DecidableEq κ] {key : α → κ} {k : κ} {f : α → α}

theorem modify_findIdx_cons (a : α) (l : List α) :
    (a :: l).modify ((a :: l).findIdx fun a => key a == k) f =
      if key a = k then f a :: l else a :: l.modify (l.findIdx fun a => key a == k) f := by
  by_cases ha : key a = k
  · rw [if_pos ha, List.findIdx_cons, ha, beq_self_eq_true, cond_true, List.modify_zero_cons]
  · rw [if_neg ha, List.findIdx_cons, beq_false_of_ne ha, cond_false, List.modify_succ_cons]

theorem find?_modify_findIdx (hf : ∀ a, key a = k → key (f a) = k) (j : κ) (l : List α) :
    (l.modify (l.findIdx fun a => key a == k) f).find? (fun a => key a == j) =
      if j = k then (l.find? fun a => key a == k).map f else l.find? fun a => key a == j := by
  induction l with
  | nil => simp
  | cons a l ih =>
    rw [modify_findIdx_cons]
    by_cases ha : key a = k
    · rw [if_pos ha]
      by_cases hj : j = k
      · subst hj
        simp [hf a ha, ha]
      · simp [hf a ha, ha, hj, Ne.symm hj]
    · rw [if_neg ha]
      by_cases haj : key a = j
      · have hj : j ≠ k := fun h => ha (haj.trans h)
        simp [haj, hj]
      · simp [haj, ih, ha]

theorem map_modify_findIdx (hf : ∀ a, key a = k → key (f a) = k) (l : List α) :
    (l.modify (l.findIdx fun a => key a == k) f).map key = l.map key := by
  induction l with
  | nil => simp
  | cons a l ih =>
    rw [modify_findIdx_cons]
    by_cases ha : key a = k
    · rw [if_pos ha, List.map_cons, List.map_cons, hf a ha, ha]
    · rw [if_neg ha, List.map_cons, List.map_cons, ih]

theorem find?_of_mem {l : List α} (hnodup : (l.map key).Nodup) {a : α} (ha : a ∈ l) :
    l.find? (fun b => key b == key a) = some a := by
  induction l with
  | nil => cases ha
  | cons b l ih =>
    rw [List.map_cons, List.nodup_cons] at hnodup
    rcases List.mem_cons.mp ha with rfl | ha
    · simp
    · have hne : key b ≠ key a := fun h => hnodup.1 (h ▸ List.mem_map_of_mem ha)
      rw [List.find?_cons_of_neg (by simpa using hne), ih hnodup.2 ha]

end Keyed
end Maps
