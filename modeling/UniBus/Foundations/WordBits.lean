import Mathlib.Tactic

/-!
# Bit sets stored in an array of machine words

Bit `i` of an array of `w`-bit words is bit `i % w` of word `i / w`. The array
is written word by word: setting one bit rewrites one word, and shifting the
whole set down by one position is a loop over the words in increasing order
that carries the low bit of the next word into the high bit of this one.
-/
namespace WordBits

variable {w n : ℕ}

/-- Bit `i`, and `false` beyond the last word. -/
def bit (ws : Vector (BitVec w) n) (i : ℕ) : Bool :=
  if h : i / w < n then ws[i / w].getLsbD (i % w) else false

def setBit (ws : Vector (BitVec w) n) (i : ℕ) : Vector (BitVec w) n :=
  if h : i / w < n then ws.set (i / w) (ws[i / w] ||| (1#w <<< (i % w))) else ws

/-- The shift loop after its first `k` iterations. Iteration `k` reads word
`k + 1`, which no earlier iteration has written. -/
def shiftDownLoop (ws : Vector (BitVec w) n) : (k : ℕ) → k ≤ n → Vector (BitVec w) n
  | 0, _ => ws
  | k + 1, h =>
    let done := shiftDownLoop ws k (by omega)
    let carry := if h' : k + 1 < n then (done[k + 1] &&& 1#w) <<< (w - 1) else 0#w
    done.set k ((done[k] >>> 1) ||| carry)

def shiftDown (ws : Vector (BitVec w) n) : Vector (BitVec w) n :=
  shiftDownLoop ws n le_rfl

theorem shiftRight_and_one_beq (x : BitVec w) (hw : 0 < w) (i : ℕ) :
    ((x >>> i) &&& 1#w == 1#w) = x.getLsbD i := by
  rw [Bool.eq_iff_iff, beq_iff_eq]
  constructor
  · intro h
    have h0 := congrArg (fun y => y.getLsbD 0) h
    simpa [hw, BitVec.getLsbD_one] using h0
  · intro h
    apply BitVec.eq_of_getLsbD_eq
    intro j hj
    rcases Nat.eq_zero_or_pos j with rfl | hpos
    · simp [hw, h]
    · simp [BitVec.getLsbD_one, show j ≠ 0 by omega]

@[simp] theorem bit_replicate_zero (i : ℕ) : bit (Vector.replicate n (0#w)) i = false := by
  simp [bit]

variable (ws : Vector (BitVec w) n)

theorem bit_of_le {i : ℕ} (h : n * w ≤ i) : bit ws i = false := by
  rcases Nat.eq_zero_or_pos w with rfl | hw
  · unfold bit
    split_ifs with hlt
    · exact BitVec.getLsbD_of_ge _ _ (Nat.zero_le _)
    · rfl
  · have hge : n ≤ i / w := (Nat.le_div_iff_mul_le hw).mpr h
    simp [bit, Nat.not_lt.mpr hge]

theorem bit_setBit {i : ℕ} (hi : i < n * w) (j : ℕ) :
    bit (setBit ws i) j = (decide (j = i) || bit ws j) := by
  have hw : 0 < w := by
    rcases Nat.eq_zero_or_pos w with rfl | h
    · simp at hi
    · exact h
  have hin : i / w < n := (Nat.div_lt_iff_lt_mul hw).mpr hi
  unfold bit setBit
  rw [dif_pos hin]
  by_cases hj : j / w < n
  · rw [dif_pos hj, dif_pos hj, Vector.getElem_set]
    by_cases hword : i / w = j / w
    · have hji : j = i ↔ j % w = i % w := by
        constructor
        · rintro rfl
          rfl
        · intro h
          rw [← Nat.div_add_mod j w, ← Nat.div_add_mod i w, h, hword]
      have hjw : j % w < w := Nat.mod_lt _ hw
      have hone : (1#w <<< (i % w)).getLsbD (j % w) = decide (j = i) := by
        rw [BitVec.getLsbD_shiftLeft, BitVec.getLsbD_one]
        have hiw : i % w < w := Nat.mod_lt _ hw
        by_cases h : j % w = i % w
        · simp [hji.mpr h, hiw, hw]
        · have : j ≠ i := fun e => h (hji.mp e)
          by_cases hlt : j % w < i % w
          · simp [this, hlt]
          · simp [this, hjw, show ¬ j % w - i % w = 0 by omega]
      rw [if_pos hword, BitVec.getLsbD_or, hone, Bool.or_comm]
      simp only [hword]
    · have hji : j ≠ i := fun h => hword (by rw [h])
      simp [hword, hji]
  · have hji : j ≠ i := fun h => hj (h ▸ hin)
    simp [hj, hji]

/-- A loop that sets the bits of a list that pass a test. -/
theorem bit_foldl_setBit (p : ℕ → Bool) {l : List ℕ} (hl : ∀ i ∈ l, i < n * w)
    (ws : Vector (BitVec w) n) (j : ℕ) :
    bit (l.foldl (fun ws i => if p i then setBit ws i else ws) ws) j = true ↔
      (j ∈ l ∧ p j = true) ∨ bit ws j = true := by
  induction l generalizing ws with
  | nil => simp
  | cons i l ih =>
    have hi : i < n * w := hl i List.mem_cons_self
    rw [List.foldl_cons, ih (fun k hk => hl k (List.mem_cons_of_mem _ hk)), List.mem_cons]
    by_cases hp : p i = true
    · rw [if_pos hp, bit_setBit ws hi, Bool.or_eq_true, decide_eq_true_iff]
      constructor
      · rintro (⟨hj, hpj⟩ | rfl | hj)
        · exact Or.inl ⟨Or.inr hj, hpj⟩
        · exact Or.inl ⟨Or.inl rfl, hp⟩
        · exact Or.inr hj
      · rintro (⟨rfl | hj, hpj⟩ | hj)
        · exact Or.inr (Or.inl rfl)
        · exact Or.inl ⟨hj, hpj⟩
        · exact Or.inr (Or.inr hj)
    · rw [if_neg hp]
      constructor
      · rintro (⟨hj, hpj⟩ | hj)
        · exact Or.inl ⟨Or.inr hj, hpj⟩
        · exact Or.inr hj
      · rintro (⟨rfl | hj, hpj⟩ | hj)
        · exact absurd hpj hp
        · exact Or.inl ⟨hj, hpj⟩
        · exact Or.inr hj

/-- After `k` iterations the first `k` words are shifted and the rest are as before. -/
theorem getElem_shiftDownLoop (k : ℕ) (hk : k ≤ n) (i : ℕ) (hi : i < n) :
    (shiftDownLoop ws k hk)[i] =
      if i < k then
        (ws[i] >>> 1) ||| (if h : i + 1 < n then (ws[i + 1] &&& 1#w) <<< (w - 1) else 0#w)
      else ws[i] := by
  induction k generalizing i with
  | zero => simp [shiftDownLoop]
  | succ k ih =>
    simp only [shiftDownLoop, Vector.getElem_set, ih (by omega)]
    by_cases hik : k = i
    · subst hik
      simp
    · by_cases hlt : i < k
      · simp [hik, hlt, show i < k + 1 by omega]
      · simp [hik, hlt, show ¬ i < k + 1 by omega]

theorem getElem_shiftDown (i : ℕ) (hi : i < n) :
    (shiftDown ws)[i] =
      (ws[i] >>> 1) ||| (if h : i + 1 < n then (ws[i + 1] &&& 1#w) <<< (w - 1) else 0#w) := by
  rw [shiftDown, getElem_shiftDownLoop, if_pos hi]

/-- Shifting down moves every bit to the position below it, across words too. -/
theorem bit_shiftDown (hw : 0 < w) (i : ℕ) :
    bit (shiftDown ws) i = bit ws (i + 1) := by
  have hmod : i % w < w := Nat.mod_lt _ hw
  have hsplit := Nat.div_add_mod i w
  by_cases hin : i / w < n
  · by_cases hlast : i % w + 1 < w
    · have hdiv : (i + 1) / w = i / w := by
        rw [← hsplit, Nat.add_assoc, Nat.mul_add_div hw, Nat.div_eq_of_lt hlast, Nat.add_zero,
          Nat.mul_add_div hw, Nat.div_eq_of_lt hmod, Nat.add_zero]
      have hmod' : (i + 1) % w = i % w + 1 := by
        conv_lhs => rw [← hsplit, Nat.add_assoc, Nat.mul_add_mod, Nat.mod_eq_of_lt hlast]
      unfold bit
      rw [dif_pos hin, dif_pos (hdiv ▸ hin), getElem_shiftDown]
      simp only [hdiv, hmod', BitVec.getLsbD_or, BitVec.getLsbD_ushiftRight]
      split_ifs with h
      · have : i % w < w - 1 := by omega
        simp [BitVec.getLsbD_shiftLeft, this, Nat.add_comm]
      · simp [Nat.add_comm]
    · have hlast' : i % w = w - 1 := by omega
      have hnext : i + 1 = w * (i / w + 1) := by rw [Nat.mul_add]; omega
      have hdiv : (i + 1) / w = i / w + 1 := by rw [hnext, Nat.mul_div_cancel_left _ hw]
      have hmod' : (i + 1) % w = 0 := by rw [hnext, Nat.mul_mod_right]
      unfold bit
      rw [dif_pos hin, getElem_shiftDown]
      simp only [hdiv, hmod', hlast', BitVec.getLsbD_or, BitVec.getLsbD_ushiftRight]
      have hout : ws[i / w].getLsbD (1 + (w - 1)) = false :=
        BitVec.getLsbD_of_ge _ _ (by omega)
      split_ifs with h
      · simp [hout, hw]
      · simp [hout]
  · have hin' : ¬ (i + 1) / w < n := fun h =>
      hin (lt_of_le_of_lt (Nat.div_le_div_right (Nat.le_succ i)) h)
    simp [bit, hin, hin']

end WordBits
