import UniBus.Foundations.WordBits
import Mathlib.Order.Bounds.Basic

/-!
# The receive window of a reliable session

`DedupWindow` keeps the next expected sequence number and a bit set of sixteen
64-bit words; bit `i` stands for `nextExpected + i`. Sequence numbers are
natural numbers here: the counter moves by one for each accepted frame, so the
wrap of a `u64` is never reached by it.

The abstract view is a plain set: the numbers accepted so far. `Refines` ties
a window to such a set, and every operation of the window is read off the set.
-/
namespace UniBus.Transport

/-- Result of checking a sequence number against the window. -/
inductive DedupResult
  | alreadySeen
  | inOrder
  | outOfOrder
  | beyondWindow
  deriving DecidableEq, Repr

/-- Sliding window; the constructor's assertion on the size is a field. -/
structure DedupWindow where
  nextExpected : ℕ
  seen : Vector (BitVec 64) 16
  windowSize : ℕ
  windowSize_le : windowSize ≤ 1024

namespace DedupWindow

def withWindowSize (initialSeq windowSize : ℕ) (h : windowSize ≤ 1024) : DedupWindow :=
  ⟨initialSeq, Vector.replicate 16 0#64, windowSize, h⟩

def new (initialSeq : ℕ) : DedupWindow := withWindowSize initialSeq 1024 le_rfl

variable (d : DedupWindow)

theorem word_lt {offset : ℕ} (h : ¬ offset ≥ d.windowSize) : offset / 64 < 16 := by
  have := d.windowSize_le
  omega

def isBitSet (offset : ℕ) : Bool :=
  if h : offset ≥ d.windowSize then false
  else
    have := d.word_lt h
    ((d.seen[offset / 64] >>> (offset % 64)) &&& 1#64) == 1#64

def setBit (offset : ℕ) : DedupWindow :=
  if offset ≥ d.windowSize then d else { d with seen := WordBits.setBit d.seen offset }

/-- Shift the whole bit set by one and increment `nextExpected`. -/
def slideOne : DedupWindow :=
  { d with nextExpected := d.nextExpected + 1, seen := WordBits.shiftDown d.seen }

/-- The loop `while is_bit_set(0) slide_one()`, cut off after `fuel` rounds;
`slideWhile_terminates` shows that 1024 rounds are never exceeded. -/
def slideWhile : ℕ → DedupWindow → DedupWindow
  | 0, d => d
  | fuel + 1, d => if d.isBitSet 0 then slideWhile fuel d.slideOne else d

def check (seq : ℕ) : DedupResult :=
  if seq < d.nextExpected then .alreadySeen
  else if seq = d.nextExpected then .inOrder
  else
    let offset := seq - d.nextExpected
    if offset ≥ d.windowSize then .beyondWindow
    else if d.isBitSet offset then .alreadySeen
    else .outOfOrder

def markAndAdvance (seq : ℕ) : DedupWindow :=
  if seq < d.nextExpected then d
  else
    let offset := seq - d.nextExpected
    if offset ≥ d.windowSize then d
    else slideWhile 1024 (d.setBit offset)

def isSeen (seq : ℕ) : Bool :=
  if seq < d.nextExpected then true
  else
    let offset := seq - d.nextExpected
    if offset ≥ d.windowSize then false else d.isBitSet offset

/-- Marks a list of sequence numbers in order. -/
def markAll (seqs : List ℕ) : DedupWindow := seqs.foldl markAndAdvance d

/-- The numbers that were inside the window at the moment they were marked. -/
def accepted (d : DedupWindow) : List ℕ → Set ℕ
  | [] => ∅
  | seq :: seqs =>
    {s | s = seq ∧ d.nextExpected ≤ seq ∧ seq < d.nextExpected + d.windowSize} ∪
      (d.markAndAdvance seq).accepted seqs

theorem isBitSet_eq (offset : ℕ) :
    d.isBitSet offset = (decide (offset < d.windowSize) && WordBits.bit d.seen offset) := by
  unfold isBitSet
  split_ifs with h
  · simp [Nat.not_lt.mpr h]
  · have hw := d.word_lt h
    rw [WordBits.shiftRight_and_one_beq _ (by decide)]
    simp [Nat.lt_of_not_ge h, WordBits.bit, hw]

@[simp] theorem slideOne_windowSize : d.slideOne.windowSize = d.windowSize := rfl
@[simp] theorem slideOne_nextExpected : d.slideOne.nextExpected = d.nextExpected + 1 := rfl

@[simp] theorem setBit_windowSize (offset : ℕ) : (d.setBit offset).windowSize = d.windowSize := by
  unfold setBit
  split_ifs <;> rfl

@[simp] theorem setBit_nextExpected (offset : ℕ) :
    (d.setBit offset).nextExpected = d.nextExpected := by
  unfold setBit
  split_ifs <;> rfl

@[simp] theorem slideWhile_windowSize (fuel : ℕ) :
    (slideWhile fuel d).windowSize = d.windowSize := by
  induction fuel generalizing d with
  | zero => rfl
  | succ fuel ih =>
    unfold slideWhile
    split_ifs
    · rw [ih, slideOne_windowSize]
    · rfl

@[simp] theorem markAndAdvance_windowSize (seq : ℕ) :
    (d.markAndAdvance seq).windowSize = d.windowSize := by
  unfold markAndAdvance
  dsimp only
  split_ifs <;> simp

theorem nextExpected_le_slideWhile (fuel : ℕ) :
    d.nextExpected ≤ (slideWhile fuel d).nextExpected := by
  induction fuel generalizing d with
  | zero => exact le_rfl
  | succ fuel ih =>
    unfold slideWhile
    split_ifs
    · exact (Nat.le_succ _).trans (ih d.slideOne)
    · exact le_rfl

theorem nextExpected_le_markAndAdvance (seq : ℕ) :
    d.nextExpected ≤ (d.markAndAdvance seq).nextExpected := by
  unfold markAndAdvance
  dsimp only
  split_ifs
  · exact le_rfl
  · exact le_rfl
  · simpa using nextExpected_le_slideWhile (d.setBit (seq - d.nextExpected)) 1024

theorem check_inOrder_iff (seq : ℕ) : d.check seq = .inOrder ↔ seq = d.nextExpected := by
  unfold check
  dsimp only
  split_ifs with hlt heq <;> simp <;> omega

theorem nextExpected_lt_markAndAdvance (hw : 0 < d.windowSize) :
    d.nextExpected < (d.markAndAdvance d.nextExpected).nextExpected := by
  have hset : (d.setBit 0).isBitSet 0 = true := by
    have hbit := WordBits.bit_setBit d.seen (i := 0) (by decide) 0
    rw [isBitSet_eq, setBit_windowSize, setBit, if_neg (Nat.not_le.mpr hw)]
    simp [hw, hbit]
  have hmark : d.markAndAdvance d.nextExpected = slideWhile 1023 (d.setBit 0).slideOne := by
    unfold markAndAdvance
    dsimp only
    rw [if_neg (lt_irrefl _), Nat.sub_self, if_neg (Nat.not_le.mpr hw), slideWhile, if_pos hset]
  rw [hmark]
  have hle := nextExpected_le_slideWhile (d.setBit 0).slideOne 1023
  simpa using hle

/-! ## Termination of the slide loop -/

/-- Big-step meaning of the loop: it stops as soon as bit 0 is clear. -/
inductive SlideLoop : DedupWindow → DedupWindow → Prop
  | stop {d : DedupWindow} : d.isBitSet 0 = false → SlideLoop d d
  | slide {d d' : DedupWindow} : d.isBitSet 0 = true → SlideLoop d.slideOne d' → SlideLoop d d'

theorem slideWhile_loop {fuel k : ℕ} (hk : k ≤ fuel) {d : DedupWindow}
    (hclear : WordBits.bit d.seen k = false) : SlideLoop d (slideWhile fuel d) := by
  induction fuel generalizing d k with
  | zero =>
    obtain rfl : k = 0 := Nat.le_zero.mp hk
    exact SlideLoop.stop (by rw [isBitSet_eq, hclear, Bool.and_false])
  | succ fuel ih =>
    unfold slideWhile
    cases h0 : d.isBitSet 0 with
    | false => exact SlideLoop.stop h0
    | true =>
      cases k with
      | zero => simp [isBitSet_eq, hclear] at h0
      | succ k =>
        refine SlideLoop.slide h0 (ih (k := k) (by omega) ?_)
        rw [slideOne, WordBits.bit_shiftDown _ (by decide)]
        exact hclear

/-- The bit set has 1024 bits, so the loop ends from every window. -/
theorem slideWhile_terminates : SlideLoop d (slideWhile 1024 d) :=
  slideWhile_loop le_rfl (WordBits.bit_of_le _ (by decide))

/-- Big-step meaning of marking: the loop runs only after a bit was set. -/
def MarksTo (seq : ℕ) (d' : DedupWindow) : Prop :=
  if seq < d.nextExpected ∨ seq - d.nextExpected ≥ d.windowSize then d' = d
  else SlideLoop (d.setBit (seq - d.nextExpected)) d'

theorem markAndAdvance_terminates (seq : ℕ) : d.MarksTo seq (d.markAndAdvance seq) := by
  unfold MarksTo markAndAdvance
  dsimp only
  by_cases hlt : seq < d.nextExpected
  · simp [hlt]
  · by_cases hge : seq - d.nextExpected ≥ d.windowSize
    · simp [hlt, hge]
    · simpa [hlt, hge] using slideWhile_terminates (d.setBit (seq - d.nextExpected))

/-! ## The window as a set of accepted numbers -/

/-- Between two rounds of the loop: everything below `nextExpected` is accepted
and the bits of the window are the accepted numbers from there on. -/
structure Aligned (d : DedupWindow) (first : ℕ) (S : Set ℕ) : Prop where
  first_le : first ≤ d.nextExpected
  below : ∀ s, first ≤ s → s < d.nextExpected → s ∈ S
  bits : ∀ i, WordBits.bit d.seen i = true ↔ d.nextExpected + i ∈ S
  bounded : ∀ s ∈ S, s < d.nextExpected + d.windowSize

/-- The window stands for `S`: in addition the next expected number is missing. -/
structure Refines (d : DedupWindow) (first : ℕ) (S : Set ℕ) : Prop extends Aligned d first S where
  next_notMem : d.nextExpected ∉ S

variable {d} {first : ℕ} {S : Set ℕ}

theorem Aligned.isBitSet_iff (h : Aligned d first S) (offset : ℕ) :
    d.isBitSet offset = true ↔ d.nextExpected + offset ∈ S := by
  rw [isBitSet_eq, Bool.and_eq_true, decide_eq_true_iff, h.bits]
  constructor
  · exact And.right
  · intro hm
    have := h.bounded _ hm
    exact ⟨by omega, hm⟩

theorem Aligned.slideOne (h : Aligned d first S) (h0 : d.isBitSet 0 = true) :
    Aligned d.slideOne first S := by
  have hmem : d.nextExpected ∈ S := by simpa using (h.isBitSet_iff 0).mp h0
  refine ⟨?_, ?_, ?_, ?_⟩
  · exact h.first_le.trans (Nat.le_succ _)
  · intro s hs hlt
    rcases Nat.lt_succ_iff_lt_or_eq.mp hlt with hlt | rfl
    · exact h.below s hs hlt
    · exact hmem
  · intro i
    rw [DedupWindow.slideOne, WordBits.bit_shiftDown _ (by decide), h.bits]
    rw [show d.nextExpected + (i + 1) = d.nextExpected + 1 + i by omega]
  · intro s hs
    have := h.bounded s hs
    simp only [slideOne_nextExpected, slideOne_windowSize]
    omega

theorem Aligned.slideLoop (h : Aligned d first S) {d' : DedupWindow} (hl : SlideLoop d d') :
    Refines d' first S := by
  induction hl with
  | @stop d h0 =>
    refine ⟨h, fun hm => ?_⟩
    have := (h.isBitSet_iff 0).mpr (by simpa using hm)
    rw [h0] at this
    exact Bool.noConfusion this
  | slide h0 _ ih => exact ih (h.slideOne h0)

theorem Aligned.setBit (h : Aligned d first S) {offset : ℕ} (hoff : offset < d.windowSize) :
    Aligned (d.setBit offset) first (insert (d.nextExpected + offset) S) := by
  have hset : d.setBit offset = { d with seen := WordBits.setBit d.seen offset } := by
    simp [DedupWindow.setBit, Nat.not_le.mpr hoff]
  rw [hset]
  refine ⟨h.first_le, ?_, ?_, ?_⟩
  · intro s hs hlt
    exact Or.inr (h.below s hs hlt)
  · intro i
    have hbound : offset < 16 * 64 := lt_of_lt_of_le hoff d.windowSize_le
    simp only [WordBits.bit_setBit _ hbound, Bool.or_eq_true, decide_eq_true_iff, h.bits,
      Set.mem_insert_iff]
    constructor <;> rintro (h' | h')
    · exact Or.inl (by omega)
    · exact Or.inr h'
    · exact Or.inl (by omega)
    · exact Or.inr h'
  · rintro s (rfl | hs)
    · exact Nat.add_lt_add_left hoff _
    · exact h.bounded s hs

theorem refines_withWindowSize (initial w : ℕ) (hw : w ≤ 1024) :
    Refines (withWindowSize initial w hw) initial ∅ := by
  refine ⟨⟨le_rfl, ?_, ?_, ?_⟩, by simp⟩
  · intro s hs hlt
    exact absurd hlt (Nat.not_lt.mpr hs)
  · intro i
    simp [withWindowSize]
  · simp

/-- One mark adds the number exactly when it lies in the window. -/
theorem Refines.markAndAdvance (h : Refines d first S) (seq : ℕ) :
    Refines (d.markAndAdvance seq) first
      ({s | s = seq ∧ d.nextExpected ≤ seq ∧ seq < d.nextExpected + d.windowSize} ∪ S) := by
  have hterm := d.markAndAdvance_terminates seq
  unfold MarksTo at hterm
  split_ifs at hterm with hout
  · have hempty : {s | s = seq ∧ d.nextExpected ≤ seq ∧
        seq < d.nextExpected + d.windowSize} = ∅ := by
      ext s
      simp only [Set.mem_ofPred_eq, Set.mem_empty_iff_false, iff_false]
      omega
    rw [hterm, hempty, Set.empty_union]
    exact h
  · have hle : d.nextExpected ≤ seq := by omega
    have hoff : seq - d.nextExpected < d.windowSize := by omega
    have hset := h.toAligned.setBit hoff
    rw [Nat.add_sub_cancel' hle] at hset
    have hin : {s | s = seq ∧ d.nextExpected ≤ seq ∧
        seq < d.nextExpected + d.windowSize} ∪ S = insert seq S := by
      ext s
      simp only [Set.mem_union, Set.mem_ofPred_eq, Set.mem_insert_iff]
      constructor <;> rintro (hs | hs)
      · exact Or.inl hs.1
      · exact Or.inr hs
      · exact Or.inl ⟨hs, by omega, by omega⟩
      · exact Or.inr hs
    rw [hin]
    exact hset.slideLoop hterm

/-- Marking the expected number of a window without gaps moves it by one. -/
theorem Refines.markAndAdvance_next (h : Refines d first (Set.Ico first d.nextExpected))
    (hw : 0 < d.windowSize) :
    (d.markAndAdvance d.nextExpected).nextExpected = d.nextExpected + 1 ∧
      Refines (d.markAndAdvance d.nextExpected) first (Set.Ico first (d.nextExpected + 1)) := by
  have hfirst := h.first_le
  have hrefines : Refines (d.markAndAdvance d.nextExpected) first
      (Set.Ico first (d.nextExpected + 1)) := by
    have hmark := h.markAndAdvance d.nextExpected
    convert hmark using 1
    ext s
    simp only [Set.mem_Ico, Set.mem_union, Set.mem_ofPred_eq]
    omega
  refine ⟨?_, hrefines⟩
  have hlt := d.nextExpected_lt_markAndAdvance hw
  by_contra hne
  have hmem := hrefines.below (d.nextExpected + 1) (by omega) (by omega)
  simp at hmem

section
variable (h : Refines d first S)
include h

theorem Refines.markAll (seqs : List ℕ) :
    Refines (d.markAll seqs) first (d.accepted seqs ∪ S) := by
  induction seqs generalizing d S with
  | nil => simpa [DedupWindow.markAll, accepted] using h
  | cons seq seqs ih =>
    have hnext := ih (h.markAndAdvance seq)
    rw [← Set.union_assoc, Set.union_comm (accepted _ _)] at hnext
    exact hnext

theorem Refines.isLeast :
    IsLeast {n | first ≤ n ∧ n ∉ S} d.nextExpected := by
  refine ⟨⟨h.first_le, h.next_notMem⟩, ?_⟩
  rintro n ⟨hn, hnot⟩
  by_contra hlt
  exact hnot (h.below n hn (Nat.lt_of_not_le hlt))

theorem Refines.isSeen_iff (s : ℕ) :
    d.isSeen s = true ↔ s < d.nextExpected ∨ s ∈ S := by
  unfold isSeen
  dsimp only
  split_ifs with hlt hge
  · simp [hlt]
  · simp only [false_iff, not_or]
    refine ⟨hlt, fun hm => ?_⟩
    have := h.bounded s hm
    omega
  · rw [h.toAligned.isBitSet_iff, Nat.add_sub_cancel' (Nat.not_lt.mp hlt)]
    simp [hlt]

theorem Refines.isSeen_iff_mem {s : ℕ} (hs : first ≤ s) :
    d.isSeen s = true ↔ s ∈ S := by
  rw [h.isSeen_iff]
  constructor
  · rintro (hlt | hm)
    · exact h.below s hs hlt
    · exact hm
  · exact Or.inr

theorem Refines.check_cases (hw : 0 < d.windowSize) (s : ℕ) :
    (d.check s = .alreadySeen ↔ s < d.nextExpected ∨ s ∈ S) ∧
    (d.check s = .inOrder ↔ s = d.nextExpected) ∧
    (d.check s = .outOfOrder ↔ d.nextExpected < s ∧ s < d.nextExpected + d.windowSize ∧ s ∉ S) ∧
    (d.check s = .beyondWindow ↔ d.nextExpected + d.windowSize ≤ s) := by
  unfold check
  dsimp only
  split_ifs with hlt heq hge hbit
  · simp only [true_iff, false_iff]
    exact ⟨Or.inl hlt, by omega, by omega, by omega⟩
  · subst heq
    have := h.next_notMem
    simp [this, hw.ne']
  · have hnot : s ∉ S := fun hm => by
      have := h.bounded s hm
      omega
    simp only [true_iff, false_iff]
    refine ⟨?_, by omega, by omega, by omega⟩
    rintro (h' | h')
    · exact hlt h'
    · exact hnot h'
  · rw [h.toAligned.isBitSet_iff, Nat.add_sub_cancel' (Nat.not_lt.mp hlt)] at hbit
    simp only [true_iff, false_iff]
    exact ⟨Or.inr hbit, by omega, fun h' => h'.2.2 hbit, by omega⟩
  · rw [h.toAligned.isBitSet_iff, Nat.add_sub_cancel' (Nat.not_lt.mp hlt)] at hbit
    simp only [true_iff, false_iff]
    refine ⟨?_, by omega, ⟨by omega, by omega, hbit⟩, by omega⟩
    rintro (h' | h')
    · exact hlt h'
    · exact hbit h'

end

/-- A number the window takes: the expected one, or one ahead for the first time. -/
def Fresh (d : DedupWindow) (seq : ℕ) : Prop :=
  d.check seq = .inOrder ∨ d.check seq = .outOfOrder

instance (d : DedupWindow) (seq : ℕ) : Decidable (d.Fresh seq) :=
  inferInstanceAs (Decidable (_ ∨ _))

theorem Refines.fresh_iff (h : Refines d first S) (hw : 0 < d.windowSize) (seq : ℕ) :
    d.Fresh seq ↔ d.nextExpected ≤ seq ∧ seq < d.nextExpected + d.windowSize ∧ seq ∉ S := by
  obtain ⟨-, hin, hout, -⟩ := h.check_cases hw seq
  rw [Fresh, hin, hout]
  constructor
  · rintro (rfl | ⟨hlt, hbound, hnot⟩)
    · exact ⟨le_rfl, by omega, h.next_notMem⟩
    · exact ⟨hlt.le, hbound, hnot⟩
  · rintro ⟨hle, hbound, hnot⟩
    rcases hle.eq_or_lt with heq | hlt
    · exact Or.inl heq.symm
    · exact Or.inr ⟨hlt, hbound, hnot⟩

theorem Refines.isSeen_markAndAdvance (h : Refines d first S) (hw : 0 < d.windowSize) {seq : ℕ}
    (hfresh : d.Fresh seq) {s : ℕ} (hs : first ≤ s) :
    (d.markAndAdvance seq).isSeen s = true ↔ s = seq ∨ d.isSeen s = true := by
  obtain ⟨hle, hbound, -⟩ := (h.fresh_iff hw seq).mp hfresh
  rw [(h.markAndAdvance seq).isSeen_iff_mem hs, h.isSeen_iff_mem hs, Set.mem_union,
    Set.mem_ofPred_eq]
  constructor
  · rintro (⟨heq, -⟩ | hm)
    · exact Or.inl heq
    · exact Or.inr hm
  · rintro (heq | hm)
    · exact Or.inl ⟨heq, hle, hbound⟩
    · exact Or.inr hm

@[simp] theorem markAll_windowSize (d : DedupWindow) (seqs : List ℕ) :
    (d.markAll seqs).windowSize = d.windowSize := by
  unfold markAll
  induction seqs generalizing d with
  | nil => rfl
  | cons seq seqs ih => rw [List.foldl_cons, ih, markAndAdvance_windowSize]

/-- Every query of a window of size `w` is answered by the set `S`. -/
structure AnswersBy (d : DedupWindow) (first w : ℕ) (S : Set ℕ) : Prop where
  marks : ∀ seq, d.MarksTo seq (d.markAndAdvance seq)
  nextExpected : IsLeast {n | first ≤ n ∧ n ∉ S} d.nextExpected
  bit_iff : ∀ i < w, WordBits.bit d.seen i = true ↔ d.nextExpected + i ∈ S
  isSeen_iff : ∀ s, d.isSeen s = true ↔ s < d.nextExpected ∨ s ∈ S
  check_alreadySeen : ∀ s, d.check s = .alreadySeen ↔ s < d.nextExpected ∨ s ∈ S
  check_inOrder : ∀ s, d.check s = .inOrder ↔ s = d.nextExpected
  check_outOfOrder : ∀ s, d.check s = .outOfOrder ↔
    d.nextExpected < s ∧ s < d.nextExpected + w ∧ s ∉ S
  check_beyondWindow : ∀ s, d.check s = .beyondWindow ↔ d.nextExpected + w ≤ s

/-- From a new window, after any list of marks, every query of the window is
answered by the set of the numbers that were in the window when marked. -/
theorem window_refines_accepted (initial w : ℕ) (hpos : 1 ≤ w) (hw : w ≤ 1024)
    (seqs : List ℕ) :
    AnswersBy ((withWindowSize initial w hw).markAll seqs) initial w
      ((withWindowSize initial w hw).accepted seqs) := by
  have h : Refines ((withWindowSize initial w hw).markAll seqs) initial
      ((withWindowSize initial w hw).accepted seqs) := by
    simpa using (refines_withWindowSize initial w hw).markAll seqs
  have hsize : ((withWindowSize initial w hw).markAll seqs).windowSize = w := by
    simp [withWindowSize]
  have hcheck (s : ℕ) := h.check_cases (by omega) s
  rw [hsize] at hcheck
  exact {
    marks := markAndAdvance_terminates _
    nextExpected := h.isLeast
    bit_iff := fun i _ => h.bits i
    isSeen_iff := h.isSeen_iff
    check_alreadySeen := fun s => (hcheck s).1
    check_inOrder := fun s => (hcheck s).2.1
    check_outOfOrder := fun s => (hcheck s).2.2.1
    check_beyondWindow := fun s => (hcheck s).2.2.2 }

theorem window_refines_accepted_after_gap :
    AnswersBy ((withWindowSize 5 8 (by decide)).markAll [6, 5, 20]) 5 8
      ((withWindowSize 5 8 (by decide)).accepted [6, 5, 20]) :=
  window_refines_accepted 5 8 (by decide) (by decide) [6, 5, 20]

example : ((withWindowSize 5 8 (by decide)).markAll [6, 5, 20]).nextExpected = 7 := by decide

end DedupWindow
end UniBus.Transport
