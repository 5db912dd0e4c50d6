import Mathlib.Tactic

/-!
# Rounding by masks

A cursor is rounded up to an alignment by adding the alignment less one and
clearing the bits of the alignment less one. The result is never below the
cursor, and it is a multiple of the alignment when that is a power of two.
-/
namespace Rounding

section Masks
variable {w : ℕ}

/-- The bits of a mask and the other bits make up the whole number. -/
theorem toNat_and_not_add (x m : BitVec w) :
    (x &&& ~~~m).toNat + (x &&& m).toNat = x.toNat := by
  have hdisjoint : (x &&& ~~~m) &&& (x &&& m) = 0#w := by
    apply BitVec.eq_of_getLsbD_eq
    intro i hi
    simp only [BitVec.getLsbD_and, BitVec.getLsbD_not, BitVec.getLsbD_zero]
    grind
  have hunion : (x &&& ~~~m) ||| (x &&& m) = x := by
    apply BitVec.eq_of_getLsbD_eq
    intro i hi
    simp only [BitVec.getLsbD_and, BitVec.getLsbD_not, BitVec.getLsbD_or]
    grind
  rw [← BitVec.toNat_add_of_and_eq_zero hdisjoint, BitVec.add_eq_or_of_and_eq_zero _ _ hdisjoint,
    hunion]

theorem le_toNat_and_not_add (x m : BitVec w) : x.toNat ≤ (x &&& ~~~m).toNat + m.toNat := by
  have hsplit := toNat_and_not_add x m
  have hle : (x &&& m).toNat ≤ m.toNat := by
    rw [BitVec.toNat_and]
    exact Nat.and_le_right
  omega

theorem toNat_and_not_of_two_pow {x m : BitVec w} {k : ℕ} (hm : m.toNat = 2 ^ k - 1) :
    (x &&& ~~~m).toNat = x.toNat / 2 ^ k * 2 ^ k := by
  have hsplit := toNat_and_not_add x m
  rw [BitVec.toNat_and x m, hm, Nat.and_two_pow_sub_one_eq_mod] at hsplit
  have hdiv := Nat.div_add_mod' x.toNat (2 ^ k)
  omega

end Masks

/-- The cursor rounded up, modulo `2 ^ 64`. -/
def up (cursor align : UInt64) : UInt64 := (cursor + align - 1) &&& ~~~(align - 1)

section Up
variable {cursor align : UInt64}

theorem toNat_sub_one (halign : 1 ≤ align) : (align - 1).toNat = align.toNat - 1 :=
  UInt64.toNat_sub_of_le _ _ halign

theorem toNat_add_sub_one (halign : 1 ≤ align) (h : cursor.toNat + align.toNat ≤ 2 ^ 64) :
    (cursor + align - 1).toNat = cursor.toNat + (align.toNat - 1) := by
  have hone : 1 ≤ align.toNat := UInt64.le_iff_toNat_le.mp halign
  have hsum : cursor + align - 1 = cursor + (align - 1) := by grind
  rw [hsum, UInt64.toNat_add, toNat_sub_one halign]
  exact Nat.mod_eq_of_lt (by omega)

/-- Rounding never goes below the cursor, whatever the alignment. -/
theorem le_up (halign : 1 ≤ align) (h : cursor.toNat + align.toNat ≤ 2 ^ 64) :
    cursor.toNat ≤ (up cursor align).toNat := by
  have hle : (cursor + align - 1).toNat ≤ (up cursor align).toNat + (align - 1).toNat :=
    le_toNat_and_not_add (cursor + align - 1).toBitVec (align - 1).toBitVec
  rw [toNat_add_sub_one halign h, toNat_sub_one halign] at hle
  exact Nat.le_of_add_le_add_right hle

/-- For a power of two it is the next multiple. -/
theorem up_of_two_pow {k : ℕ} (halign : align.toNat = 2 ^ k)
    (h : cursor.toNat + align.toNat ≤ 2 ^ 64) :
    (up cursor align).toNat = (cursor.toNat + (2 ^ k - 1)) / 2 ^ k * 2 ^ k := by
  have hone : 1 ≤ align := by
    rw [UInt64.le_iff_toNat_le, halign]
    exact Nat.two_pow_pos k
  have hmask : (align - 1).toBitVec.toNat = 2 ^ k - 1 := by
    rw [UInt64.toNat_toBitVec, toNat_sub_one hone, halign]
  have hcleared : (up cursor align).toNat =
      ((cursor + align - 1).toBitVec &&& ~~~(align - 1).toBitVec).toNat := rfl
  rw [hcleared, toNat_and_not_of_two_pow hmask, UInt64.toNat_toBitVec, toNat_add_sub_one hone h,
    halign]

end Up

end Rounding
