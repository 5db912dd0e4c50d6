import Mathlib.Tactic

/-!
# Sub-allocation within a pool

A bump allocator: offsets are handed out in order and never taken back. The
additions are those of the program, modulo `2 ^ 64`.
-/
namespace UniBus.Managed

structure SubAllocator where
  baseOffset : UInt64
  totalLen : UInt64
  allocated : UInt64
  deriving DecidableEq, Repr

namespace SubAllocator

def new (baseOffset totalLen : UInt64) : SubAllocator := ⟨baseOffset, totalLen, 0⟩

variable (a : SubAllocator)

def alloc (size : UInt64) : Option (SubAllocator × UInt64) :=
  if a.allocated + size > a.totalLen then none
  else some ({ a with allocated := a.allocated + size }, a.baseOffset + a.allocated)

/-- Nothing is reclaimed. -/
def free (_offset _size : UInt64) : SubAllocator := a

variable {a}

theorem alloc_eq_some {size offset : UInt64} {a' : SubAllocator}
    (h : a.alloc size = some (a', offset)) :
    a.allocated + size ≤ a.totalLen ∧ a' = { a with allocated := a.allocated + size } ∧
      offset = a.baseOffset + a.allocated := by
  unfold alloc at h
  split_ifs at h with hfull
  cases h
  exact ⟨UInt64.not_lt.mp hfull, rfl, rfl⟩

end SubAllocator
end UniBus.Managed
