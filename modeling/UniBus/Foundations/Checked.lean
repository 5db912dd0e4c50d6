import UniBus.Foundations.Bytes
import UniBus.Foundations.WordBits

/-!
# Operations that panic

Arithmetic on machine numbers, shifts, indexing and slicing as a program with all
checks on runs them: `none` is a panic.
-/
namespace Checked

/-! ## Arithmetic -/

/-- The sum of two `w`-bit numbers. -/
def add (w a b : ℕ) : Option ℕ := if a + b < 2 ^ w then some (a + b) else none

def mul (w a b : ℕ) : Option ℕ := if a * b < 2 ^ w then some (a * b) else none

def sub (a b : ℕ) : Option ℕ := if b ≤ a then some (a - b) else none

def addU32 (a b : UInt32) : Option UInt32 :=
  if a.toNat + b.toNat < 2 ^ 32 then some (a + b) else none

def addU64 (a b : UInt64) : Option UInt64 :=
  if a.toNat + b.toNat < 2 ^ 64 then some (a + b) else none

def subU64 (a b : UInt64) : Option UInt64 := if b ≤ a then some (a - b) else none

/-- Shifts by the width or more panic. -/
def shiftRight {w : ℕ} (x : BitVec w) (n : ℕ) : Option (BitVec w) :=
  if n < w then some (x >>> n) else none

def shiftLeft {w : ℕ} (x : BitVec w) (n : ℕ) : Option (BitVec w) :=
  if n < w then some (x <<< n) else none

section Arithmetic
variable {w a b : ℕ}

theorem add_eq_some (h : a + b < 2 ^ w) : add w a b = some (a + b) := if_pos h

theorem add_eq_none (h : 2 ^ w ≤ a + b) : add w a b = none := if_neg (Nat.not_lt.mpr h)

theorem mul_eq_some (h : a * b < 2 ^ w) : mul w a b = some (a * b) := if_pos h

theorem sub_eq_some (h : b ≤ a) : sub a b = some (a - b) := if_pos h

theorem addU32_one {a : UInt32} (h : a.toNat + 1 < 2 ^ 32) : addU32 a 1 = some (a + 1) := if_pos h

theorem addU32_one_eq_none {a : UInt32} (h : 2 ^ 32 ≤ a.toNat + 1) : addU32 a 1 = none :=
  if_neg (Nat.not_lt.mpr h)

theorem toNat_addU32 {a b : UInt32} (h : a.toNat + b.toNat < 2 ^ 32) :
    (a + b).toNat = a.toNat + b.toNat := by
  rw [UInt32.toNat_add]
  exact Nat.mod_eq_of_lt h

theorem toNat_addU32_one {a : UInt32} (h : a.toNat + 1 < 2 ^ 32) :
    (a + 1).toNat = a.toNat + 1 := toNat_addU32 h

theorem toNat_addU64 {a b : UInt64} (h : a.toNat + b.toNat < 2 ^ 64) :
    (a + b).toNat = a.toNat + b.toNat := by
  rw [UInt64.toNat_add]
  exact Nat.mod_eq_of_lt h

theorem addU64_eq_some {a b : UInt64} (h : a.toNat + b.toNat < 2 ^ 64) :
    addU64 a b = some (a + b) := if_pos h

theorem subU64_eq_some {a b : UInt64} (h : b ≤ a) : subU64 a b = some (a - b) := if_pos h

theorem shiftRight_eq_some {x : BitVec w} (h : a < w) : shiftRight x a = some (x >>> a) := if_pos h

theorem shiftLeft_eq_some {x : BitVec w} (h : a < w) : shiftLeft x a = some (x <<< a) := if_pos h

end Arithmetic

/-! ## Bit sets -/

/-- Sets bit `i` of an array of words. -/
def setBit {w n : ℕ} (ws : Vector (BitVec w) n) (i : ℕ) : Option (Vector (BitVec w) n) := do
  let word ← ws[i / w]?
  let bit ← shiftLeft 1#w (i % w)
  return ws.setIfInBounds (i / w) (word ||| bit)

theorem setBit_eq_some {w n : ℕ} {ws : Vector (BitVec w) n} {i : ℕ} (h : i < n * w) :
    setBit ws i = some (WordBits.setBit ws i) := by
  have hw : 0 < w := by
    rcases Nat.eq_zero_or_pos w with rfl | hw
    · simp at h
    · exact hw
  have hword : i / w < n := (Nat.div_lt_iff_lt_mul hw).mpr h
  rw [setBit, shiftLeft_eq_some (Nat.mod_lt i hw), Vector.getElem?_eq_getElem hword]
  simp only [Option.bind_eq_bind, Option.bind_some, Option.pure_def, WordBits.setBit,
    dif_pos hword, Option.some.injEq]
  ext j hj
  simp [Vector.getElem_set, Vector.getElem_setIfInBounds]

/-! ## Byte strings -/

/-- `&bs[start..stop]`. -/
def slice (bs : List UInt8) (start stop : ℕ) : Option (List UInt8) :=
  if start ≤ stop ∧ stop ≤ bs.length then some (Bytes.slice bs start (stop - start)) else none

/-- `bs[start..stop].copy_from_slice(new)`. -/
def copyFromSlice (bs : List UInt8) (start stop : ℕ) (new : List UInt8) : Option (List UInt8) :=
  if start ≤ stop ∧ stop ≤ bs.length ∧ new.length = stop - start then
    some (Bytes.splice bs start new)
  else none

/-- A slice turned into an array of `n` bytes, or copied into a buffer of that size. -/
def ofLength (n : ℕ) (bs : List UInt8) : Option (List UInt8) :=
  if bs.length = n then some bs else none

section Bytes
variable {bs new : List UInt8} {start stop : ℕ}

theorem slice_eq_some (hle : start ≤ stop) (hstop : stop ≤ bs.length) :
    slice bs start stop = some (Bytes.slice bs start (stop - start)) := if_pos ⟨hle, hstop⟩

theorem copyFromSlice_eq_some (hstop : start + new.length ≤ bs.length) :
    copyFromSlice bs start (start + new.length) new = some (Bytes.splice bs start new) :=
  if_pos ⟨by omega, hstop, by omega⟩

theorem ofLength_slice {pos n : ℕ} (h : pos + n ≤ bs.length) :
    ofLength n (Bytes.slice bs pos n) = some (Bytes.slice bs pos n) :=
  if_pos (Bytes.length_slice h)

end Bytes

/-! ## Loops -/

theorem foldlM_eq_some {α β : Type*} {f : β → α → Option β} {g : β → α → β} {l : List α}
    (h : ∀ b, ∀ a ∈ l, f b a = some (g b a)) (b : β) : l.foldlM f b = some (l.foldl g b) := by
  induction l generalizing b with
  | nil => rfl
  | cons a l ih =>
    rw [List.foldlM_cons, h b a List.mem_cons_self, List.foldl_cons]
    exact ih (fun b a ha => h b a (List.mem_cons_of_mem _ ha)) (g b a)

end Checked
