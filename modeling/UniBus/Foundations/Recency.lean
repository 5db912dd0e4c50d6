import Mathlib.Algebra.GroupWithZero.Nat
import Mathlib.Data.Finset.Card
import Mathlib.Data.List.AList
import Mathlib.Data.List.MinMax

/-!
# Least recently used entries

The entries of a finite map carry a stamp. With distinct stamps the entry with the
least one does not depend on the order in which the entries are searched. `weightBefore`
sums what goes before an entry when the least stamp goes first.

The keys touched so far, the latest first, make up a stack of distinct keys. A key is
among the first `n` of the stack if fewer than `n` other keys were touched since it was
touched last.
-/
namespace Recency

section Least
variable {α τ : Type*} [LinearOrder τ] {stamp : α → τ} {l order : List α}

theorem argmin_of_forall_lt {a : α} (ha : a ∈ l) (hlt : ∀ b ∈ l, b ≠ a → stamp a < stamp b) :
    l.argmin stamp = some a := by
  cases hmin : l.argmin stamp with
  | none =>
    rw [List.argmin_eq_none] at hmin
    rw [hmin] at ha
    cases ha
  | some b =>
    by_contra hne
    have hb := hlt b (List.argmin_mem hmin) fun h => hne (congrArg some h)
    exact absurd (List.le_of_mem_argmin ha hmin) (not_le.mpr hb)

/-- The minimum of a list is the head of its elements in increasing order. -/
theorem argmin_of_sorted (hperm : order.Perm l)
    (hsorted : order.Pairwise fun a b => stamp a < stamp b) : l.argmin stamp = order.head? := by
  cases order with
  | nil =>
    obtain rfl := hperm.nil_eq
    rfl
  | cons a order =>
    rw [List.head?_cons]
    apply argmin_of_forall_lt (hperm.subset List.mem_cons_self)
    intro b hb hne
    rcases List.mem_cons.mp (hperm.symm.subset hb) with rfl | hb
    · exact absurd rfl hne
    · exact (List.pairwise_cons.mp hsorted).1 b hb

theorem pairwise_lt_mergeSort (hnodup : (l.map stamp).Nodup) :
    (l.mergeSort fun a b => decide (stamp a ≤ stamp b)).Pairwise
      fun a b => stamp a < stamp b := by
  have hperm := List.mergeSort_perm l fun a b => decide (stamp a ≤ stamp b)
  have hsorted : (l.mergeSort fun a b => decide (stamp a ≤ stamp b)).Pairwise
      fun a b => decide (stamp a ≤ stamp b) = true := by
    apply List.pairwise_mergeSort
    · intro a b c hab hbc
      exact decide_eq_true ((of_decide_eq_true hab).trans (of_decide_eq_true hbc))
    · intro a b
      simpa using le_total (stamp a) (stamp b)
  have hdistinct : (l.mergeSort fun a b => decide (stamp a ≤ stamp b)).Pairwise
      fun a b => stamp a ≠ stamp b :=
    List.pairwise_map.mp ((hperm.map stamp).nodup_iff.mpr hnodup)
  exact hsorted.imp₂ (fun a b hle hne => lt_of_le_of_ne (of_decide_eq_true hle) hne) hdistinct

theorem argmin_cons_eq_some {a e : α} (h : (a :: l).argmin stamp = some e) :
    a = e ∨ l.argmin stamp = some e ∧ stamp e < stamp a := by
  rw [List.argmin_cons] at h
  cases hrest : l.argmin stamp with
  | none =>
    rw [hrest] at h
    exact .inl (Option.some.inj h)
  | some c =>
    rw [hrest] at h
    dsimp only at h
    split_ifs at h with hlt
    · obtain rfl := Option.some.inj h
      exact .inr ⟨rfl, hlt⟩
    · exact .inl (Option.some.inj h)

end Least

section Before
variable {K V τ : Type*} [DecidableEq K] [LinearOrder τ] (stamp : (Sigma fun _ : K => V) → τ)
  (weight : (Sigma fun _ : K => V) → ℕ)

/-- The weight of the entries that go before the one of the key `k` with the given stamp, when
the least stamp goes first and, of equal ones, the first in the list. -/
def weightBefore (k : K) (bound : τ) : List (Sigma fun _ : K => V) → ℕ
  | [] => 0
  | e :: l =>
    if e.1 = k then ((l.filter fun a => stamp a < bound).map weight).sum
    else (if stamp e ≤ bound then weight e else 0) + weightBefore k bound l

variable {stamp weight} {a e : Sigma fun _ : K => V} {l : List (Sigma fun _ : K => V)}

theorem sum_filter_kerase {p : (Sigma fun _ : K => V) → Bool} (hnodup : l.NodupKeys) (he : e ∈ l)
    (hp : p e = true) :
    ((l.filter p).map weight).sum = weight e + (((l.kerase e.1).filter p).map weight).sum := by
  induction l with
  | nil => cases he
  | cons b l ih =>
    rw [List.nodupKeys_cons] at hnodup
    rcases List.mem_cons.mp he with rfl | he
    · rw [List.kerase_cons_eq rfl, List.filter_cons_of_pos hp, List.map_cons, List.sum_cons]
    · have hne : e.1 ≠ b.1 := fun h => hnodup.1 (h ▸ List.mem_keys_of_mem he)
      have hrest := ih hnodup.2 he
      rw [List.kerase_cons_ne hne, List.filter_cons, List.filter_cons]
      split_ifs
      · rw [List.map_cons, List.map_cons, List.sum_cons, List.sum_cons, hrest]
        omega
      · exact hrest

theorem weightBefore_kerase (hnodup : l.NodupKeys) (ha : a ∈ l)
    (hmin : l.argmin stamp = some e) (hne : e.1 ≠ a.1) :
    weightBefore stamp weight a.1 (stamp a) l =
      weight e + weightBefore stamp weight a.1 (stamp a) (l.kerase e.1) := by
  induction l with
  | nil => cases ha
  | cons b l ih =>
    have hle : stamp e ≤ stamp a := List.le_of_mem_argmin ha hmin
    rw [List.nodupKeys_cons] at hnodup
    rcases argmin_cons_eq_some hmin with rfl | ⟨hrest, hlt⟩
    · rw [List.kerase_cons_eq rfl, weightBefore, if_neg hne, if_pos hle]
    · have he : e ∈ l := List.argmin_mem hrest
      have hkey : e.1 ≠ b.1 := fun h => hnodup.1 (h ▸ List.mem_keys_of_mem he)
      rw [List.kerase_cons_ne hkey, weightBefore, weightBefore]
      rcases List.mem_cons.mp ha with rfl | ha
      · rw [if_pos rfl, if_pos rfl]
        exact sum_filter_kerase hnodup.2 he (decide_eq_true hlt)
      · have hother : b.1 ≠ a.1 := fun h => hnodup.1 (h ▸ List.mem_keys_of_mem ha)
        rw [if_neg hother, if_neg hother, ih hnodup.2 ha hrest]
        omega

theorem weightBefore_argmin (hnodup : l.NodupKeys) (hmin : l.argmin stamp = some e) :
    weightBefore stamp weight e.1 (stamp e) l = 0 := by
  induction l with
  | nil => rfl
  | cons b l ih =>
    rw [List.nodupKeys_cons] at hnodup
    rcases argmin_cons_eq_some hmin with rfl | ⟨hrest, hlt⟩
    · have hnone : l.filter (fun a => stamp a < stamp b) = [] := by
        rw [List.filter_eq_nil_iff]
        intro a ha
        rw [decide_eq_true_eq, not_lt]
        exact List.le_of_mem_argmin (List.mem_cons_of_mem b ha) hmin
      rw [weightBefore, if_pos rfl, hnone]
      rfl
    · have hkey : b.1 ≠ e.1 :=
        fun h => hnodup.1 (h ▸ List.mem_keys_of_mem (List.argmin_mem hrest))
      rw [weightBefore, if_neg hkey, if_neg (not_le.mpr hlt), ih hnodup.2 hrest]

end Before

section Maps
variable {K V : Type*} [DecidableEq K]

theorem perm_entries_erase {m : AList fun _ : K => V} {e : Sigma fun _ : K => V}
    {rest : List (Sigma fun _ : K => V)} (hperm : (e :: rest).Perm m.entries) :
    rest.Perm (m.erase e.1).entries := by
  have hnodup : (e :: rest).NodupKeys := (List.perm_nodupKeys hperm).mpr m.nodupKeys
  have herase := hperm.kerase (a := e.1) hnodup
  rwa [List.kerase_cons_eq rfl] at herase

theorem perm_cons_filter_ne {e : Sigma fun _ : K => V} {l : List (Sigma fun _ : K => V)}
    (hnodup : (l.map fun e => e.1).Nodup) (hmem : e ∈ l) :
    (e :: l.filter (fun a => a.1 ≠ e.1)).Perm l := by
  obtain ⟨before, after, rfl⟩ := List.append_of_mem hmem
  rw [List.map_append, List.map_cons, List.nodup_append, List.nodup_cons] at hnodup
  obtain ⟨-, ⟨hafter, -⟩, hbefore⟩ := hnodup
  have hleft : ∀ a ∈ before, a.1 ≠ e.1 := fun a ha =>
    hbefore a.1 (List.mem_map_of_mem ha) e.1 List.mem_cons_self
  have hright : ∀ a ∈ after, a.1 ≠ e.1 := fun a ha h => hafter (h ▸ List.mem_map_of_mem ha)
  rw [List.filter_append, List.filter_cons_of_neg (by simp),
    List.filter_eq_self.mpr (by simpa using hleft),
    List.filter_eq_self.mpr (by simpa using hright)]
  exact List.perm_middle.symm

end Maps

section Stack
variable {K : Type*} [DecidableEq K]

/-- The distinct keys of a list of touches, the latest first. -/
def stack : List K → List K
  | [] => []
  | k :: ks => k :: (stack ks).filter (· ≠ k)

variable {k : K} {ks : List K} {n : ℕ}

theorem mem_stack : k ∈ stack ks ↔ k ∈ ks := by
  induction ks with
  | nil => rfl
  | cons a ks ih =>
    by_cases h : k = a
    · simp [stack, h]
    · simp [stack, h, ih]

theorem nodup_stack (ks : List K) : (stack ks).Nodup := by
  induction ks with
  | nil => exact List.nodup_nil
  | cons a ks ih =>
    rw [stack, List.nodup_cons]
    exact ⟨by simp, ih.filter _⟩

theorem takeWhile_ne_filter_ne {a : K} (h : a ≠ k) (l : List K) :
    (l.filter (· ≠ a)).takeWhile (· ≠ k) = (l.takeWhile (· ≠ k)).filter (· ≠ a) := by
  induction l with
  | nil => rfl
  | cons b l ih =>
    by_cases hk : b = k
    · subst hk
      simp [Ne.symm h]
    · by_cases ha : b = a
      · subst ha
        simpa [h] using ih
      · simpa [hk, ha] using ih

/-- Above a key lie the other keys that were touched since. -/
theorem toFinset_takeWhile_stack (ks : List K) (k : K) :
    ((stack ks).takeWhile (· ≠ k)).toFinset = (ks.takeWhile (· ≠ k)).toFinset := by
  induction ks with
  | nil => rfl
  | cons a ks ih =>
    by_cases h : a = k
    · simp [stack, h]
    · have hlist : (stack (a :: ks)).takeWhile (· ≠ k) =
          a :: ((stack ks).takeWhile (· ≠ k)).filter (· ≠ a) := by
        rw [stack, List.takeWhile_cons_of_pos (by simpa using h), takeWhile_ne_filter_ne h]
      rw [hlist, List.takeWhile_cons_of_pos (by simpa using h), List.toFinset_cons,
        List.toFinset_cons, List.toFinset_filter, ih]
      ext b
      by_cases hb : b = a <;> simp [hb]

theorem mem_take_iff_length_takeWhile {l : List K} (hmem : k ∈ l) :
    k ∈ l.take n ↔ (l.takeWhile (· ≠ k)).length < n := by
  induction l generalizing n with
  | nil => cases hmem
  | cons a l ih =>
    cases n with
    | zero => simp
    | succ n =>
      by_cases h : a = k
      · simp [h]
      · have hl : k ∈ l := (List.mem_cons.mp hmem).resolve_left (Ne.symm h)
        rw [List.take_succ_cons, List.mem_cons, or_iff_right (Ne.symm h), ih hl,
          List.takeWhile_cons_of_pos (by simpa using h), List.length_cons, Nat.add_lt_add_iff_right]

theorem mem_take_stack_iff :
    k ∈ (stack ks).take n ↔ k ∈ ks ∧ (ks.takeWhile (· ≠ k)).toFinset.card < n := by
  by_cases hmem : k ∈ ks
  · have hnodup : ((stack ks).takeWhile (· ≠ k)).Nodup :=
      (nodup_stack ks).sublist (List.takeWhile_sublist _)
    rw [mem_take_iff_length_takeWhile (mem_stack.mpr hmem), ← List.toFinset_card_of_nodup hnodup,
      toFinset_takeWhile_stack, and_iff_right hmem]
  · constructor
    · intro htake
      exact absurd (mem_stack.mp (List.mem_of_mem_take htake)) hmem
    · rintro ⟨h, -⟩
      exact absurd h hmem

theorem take_filter_ne_of_mem {l : List K} (hnodup : l.Nodup) (hmem : k ∈ l.take (n + 1)) :
    (l.filter (· ≠ k)).take n = (l.take (n + 1)).filter (· ≠ k) := by
  induction l generalizing n with
  | nil => cases hmem
  | cons a l ih =>
    obtain ⟨ha, hl⟩ := List.nodup_cons.mp hnodup
    by_cases h : a = k
    · subst h
      have hkeep : ∀ b ∈ l, b ≠ a := fun b hb hba => ha (hba ▸ hb)
      have htake : ∀ b ∈ l.take n, b ≠ a := fun b hb => hkeep b (List.mem_of_mem_take hb)
      rw [List.take_succ_cons, List.filter_cons_of_neg (by simp), List.filter_cons_of_neg (by simp),
        List.filter_eq_self.mpr (by simpa using hkeep),
        List.filter_eq_self.mpr (by simpa using htake)]
    · have hmem : k ∈ l.take n := by
        rw [List.take_succ_cons] at hmem
        exact (List.mem_cons.mp hmem).resolve_left (Ne.symm h)
      cases n with
      | zero => cases hmem
      | succ n =>
        rw [List.take_succ_cons, List.filter_cons_of_pos (by simpa using h),
          List.filter_cons_of_pos (by simpa using h), List.take_succ_cons, ih hl hmem]

theorem take_filter_ne_of_notMem {l : List K} (hmem : k ∉ l.take n) :
    (l.filter (· ≠ k)).take n = l.take n := by
  induction l generalizing n with
  | nil => rfl
  | cons a l ih =>
    cases n with
    | zero => rfl
    | succ n =>
      rw [List.take_succ_cons, List.mem_cons, not_or] at hmem
      have ha : a ≠ k := Ne.symm hmem.1
      rw [List.filter_cons_of_pos (by simpa using ha), List.take_succ_cons, List.take_succ_cons,
        ih hmem.2]

/-- Touching one of the first keys moves it to the front. -/
theorem take_stack_cons_of_mem (hmem : k ∈ (stack ks).take (n + 1)) :
    (stack (k :: ks)).take (n + 1) = k :: ((stack ks).take (n + 1)).filter (· ≠ k) := by
  rw [stack, List.take_succ_cons, take_filter_ne_of_mem (nodup_stack ks) hmem]

/-- Touching another key pushes the last of them out. -/
theorem take_stack_cons_of_notMem (hmem : k ∉ (stack ks).take (n + 1)) :
    (stack (k :: ks)).take (n + 1) = k :: (stack ks).take n := by
  have hnot : k ∉ (stack ks).take n := fun h =>
    hmem ((List.take_sublist_take_left (Nat.le_succ n)).subset h)
  rw [stack, List.take_succ_cons, take_filter_ne_of_notMem hnot]

end Stack

end Recency
