import UniBus.Core.Types
import UniBus.Foundations.Checked
import UniBus.Foundations.Ranges
import UniBus.Foundations.Rounding
import UniBus.Foundations.Runs

/-!
# Allocation on an NPU device

A bump allocator with a caller-chosen alignment. The additions are those of the
program, modulo `2 ^ 64`, and the rounding is by a mask, which rounds to a multiple
of the alignment only if that is a power of two. Apart from these two, ranges are
aligned, in bounds and never handed out twice.
-/
namespace UniBus

open Ranges (span Logged logged_nil)

/-- What allocation reads and writes of a device; its bytes are those of `Device`. -/
structure NpuDevice where
  deviceId : UInt16
  capacity : UInt64
  allocCursor : UInt64
  deriving DecidableEq, Repr

structure NpuRequest where
  len : UInt64
  align : UInt64
  one_le_align : 1 ≤ align

namespace NpuDevice

def new (deviceId : UInt16) (memSizeMib : UInt64) : NpuDevice :=
  ⟨deviceId, memSizeMib * 1024 * 1024, 0⟩

variable (d : NpuDevice)

def alloc (len align : UInt64) : NpuDevice × Except UbError (UInt64 × UInt64) :=
  let aligned := (d.allocCursor + align - 1) &&& ~~~(align - 1)
  let stop := aligned + len
  if stop > d.capacity then (d, .error .noResources)
  else ({ d with allocCursor := stop }, .ok (aligned, len))

def ubNpuAlloc (npu : NpuDevice) (len align : UInt64) :
    NpuDevice × Except UbError (UInt64 × UInt64) :=
  npu.alloc len align

def step (r : NpuRequest) : NpuDevice × List (ℕ × ℕ) :=
  match d.ubNpuAlloc r.len r.align with
  | (d, .ok (offset, len)) => (d, [(offset.toNat, len.toNat)])
  | (d, .error _) => (d, [])

/-- Neither addition of the call wraps. -/
def Fits (r : NpuRequest) : Prop :=
  d.allocCursor.toNat + r.align.toNat < 2 ^ 64 ∧
    (Rounding.up d.allocCursor r.align).toNat + r.len.toNat < 2 ^ 64

/-- The mask gives a multiple of the alignment, if the call succeeds. -/
def RoundsUp (r : NpuRequest) : Prop :=
  Rounding.up d.allocCursor r.align + r.len ≤ d.capacity →
    r.align.toNat ∣ (Rounding.up d.allocCursor r.align).toNat

/-- What a caller expects of one call, after the ranges `log` were handed out. -/
structure Safe (log : List (ℕ × ℕ)) (r : NpuRequest) : Prop where
  fits : d.Fits r
  granted : ∀ offset len, (d.ubNpuAlloc r.len r.align).2 = .ok (offset, len) →
    len = r.len ∧ offset.toNat % r.align.toNat = 0 ∧
      offset.toNat + len.toNat ≤ d.capacity.toNat ∧
      ∀ range ∈ log, Disjoint (span range) (span (offset.toNat, len.toNat))
  refused : ∀ e, (d.ubNpuAlloc r.len r.align).2 = .error e →
    (d.ubNpuAlloc r.len r.align).1.allocCursor = d.allocCursor

variable {d} {r : NpuRequest} {log : List (ℕ × ℕ)}

theorem ubNpuAlloc_of_lt (h : d.capacity < Rounding.up d.allocCursor r.align + r.len) :
    d.ubNpuAlloc r.len r.align = (d, .error .noResources) := if_pos h

theorem ubNpuAlloc_of_le (h : Rounding.up d.allocCursor r.align + r.len ≤ d.capacity) :
    d.ubNpuAlloc r.len r.align =
      ({ d with allocCursor := Rounding.up d.allocCursor r.align + r.len },
        .ok (Rounding.up d.allocCursor r.align, r.len)) := if_neg (UInt64.not_lt.mpr h)

theorem roundsUp_of_two_pow {k : ℕ} (hk : r.align.toNat = 2 ^ k) (hfits : d.Fits r) :
    d.RoundsUp r := by
  intro _
  rw [Rounding.up_of_two_pow hk hfits.1.le, hk]
  exact Nat.dvd_mul_left _ _

/-- All ranges handed out lie below the cursor. -/
def Handed (d : NpuDevice) (log : List (ℕ × ℕ)) : Prop :=
  Logged (fun _ => ()) id log fun _ => d.allocCursor.toNat

theorem Handed.safe_iff (h : d.Handed log) : d.Safe log r ↔ d.Fits r ∧ d.RoundsUp r := by
  constructor
  · intro hsafe
    refine ⟨hsafe.fits, ?_⟩
    intro hroom
    obtain ⟨-, hmod, -⟩ := hsafe.granted _ _ (congrArg Prod.snd (ubNpuAlloc_of_le hroom))
    exact Nat.dvd_of_mod_eq_zero hmod
  · rintro ⟨hfits, hround⟩
    by_cases hroom : Rounding.up d.allocCursor r.align + r.len ≤ d.capacity
    · have halloc := ubNpuAlloc_of_le hroom
      refine ⟨hfits, ?_, ?_⟩
      · intro offset len hok
        rw [halloc] at hok
        cases hok
        refine ⟨rfl, Nat.mod_eq_zero_of_dvd (hround hroom), ?_, ?_⟩
        · rw [← Checked.toNat_addU64 hfits.2]
          exact UInt64.le_iff_toNat_le.mp hroom
        · intro range hrange
          exact h.disjoint_of_le hrange (Rounding.le_up r.one_le_align hfits.1.le)
      · intro e herror
        rw [halloc] at herror
        cases herror
    · have halloc := ubNpuAlloc_of_lt (UInt64.not_le.mp hroom)
      refine ⟨hfits, ?_, ?_⟩
      · intro offset len hok
        rw [halloc] at hok
        cases hok
      · intro e _
        rw [halloc]

theorem Handed.step (h : d.Handed log) (hfits : d.Fits r) :
    (d.step r).1.Handed (log ++ (d.step r).2) := by
  unfold NpuDevice.step
  by_cases hroom : Rounding.up d.allocCursor r.align + r.len ≤ d.capacity
  · rw [ubNpuAlloc_of_le hroom]
    have hstart := Rounding.le_up r.one_le_align hfits.1.le
    have hstop := Checked.toNat_addU64 hfits.2
    apply h.concat (a := ((Rounding.up d.allocCursor r.align).toNat, r.len.toNat)) hstart
    · intro _
      exact hstart.trans (hstop ▸ Nat.le_add_right _ _)
    · exact hstop.ge
  · rw [ubNpuAlloc_of_lt (UInt64.not_le.mp hroom), List.append_nil]
    exact h

theorem meets_safe_iff (d : NpuDevice) (requests : List NpuRequest) :
    Runs.Meets step Safe d [] requests ↔
      Runs.Meets step (fun d _ r => d.Fits r ∧ d.RoundsUp r) d [] requests := by
  have hempty : d.Handed [] := logged_nil
  apply Runs.meets_iff (I := Handed) _ _ hempty
  · intro d log r h
    exact h.safe_iff
  · intro d log r h hsafe
    exact h.step hsafe.fits

/-- With alignments that are powers of two the calls of a run are all safe just in case no
addition wraps. In general every range handed out has to start at a multiple of its alignment
as well, which the mask ensures for powers of two. -/
theorem npu_allocations_safe_iff (d : NpuDevice) (requests : List NpuRequest) :
    ((∀ r ∈ requests, ∃ k, r.align.toNat = 2 ^ k) →
      (Runs.Meets step Safe d [] requests ↔
        Runs.Meets step (fun d _ r => d.Fits r) d [] requests)) ∧
    (Runs.Meets step Safe d [] requests ↔
      Runs.Meets step (fun d _ r => d.Fits r ∧ d.RoundsUp r) d [] requests) ∧
    ∀ (d : NpuDevice) (r : NpuRequest) (k : ℕ), r.align.toNat = 2 ^ k → d.Fits r →
      d.RoundsUp r := by
  refine ⟨?_, meets_safe_iff d requests, fun d r k => roundsUp_of_two_pow⟩
  intro hpowers
  constructor
  · exact Runs.Meets.mono fun _ _ _ hsafe => hsafe.fits
  · intro hfits
    have hpower : Runs.Meets step (fun _ _ (r : NpuRequest) => ∃ k, r.align.toNat = 2 ^ k)
        d [] requests := Runs.meets_of_forall_mem hpowers
    apply (meets_safe_iff d requests).mpr
    apply (hfits.and hpower).mono
    rintro d - r ⟨hfit, k, hk⟩
    exact ⟨hfit, roundsUp_of_two_pow hk hfit⟩

theorem npu_allocations_safe_iff_sixteen :
    Runs.Meets step Safe (new 1 1) [] [⟨5, 8, by decide⟩, ⟨3, 16, by decide⟩] := by
  apply ((npu_allocations_safe_iff (new 1 1) [⟨5, 8, by decide⟩, ⟨3, 16, by decide⟩]).1 _).mpr
  · exact ⟨⟨by decide +kernel, by decide +kernel⟩, ⟨by decide +kernel, by decide +kernel⟩, trivial⟩
  · simp only [List.forall_mem_cons]
    exact ⟨⟨3, rfl⟩, ⟨4, rfl⟩, fun _ hr => absurd hr List.not_mem_nil⟩

/-- A length near `2 ^ 64` moves the cursor back to the start. -/
def wrappingRequests : List NpuRequest :=
  [⟨8, 8, by decide⟩, ⟨18446744073709551608, 8, by decide⟩, ⟨8, 8, by decide⟩]

def threeAligned : List NpuRequest := [⟨1, 1, by decide⟩, ⟨1, 3, by decide⟩]

/-- The range of the first call is handed out again, and an alignment of 3 is not kept. -/
theorem npu_range_handed_out_twice :
    (Runs.run step (new 1 1) wrappingRequests).2 = [(0, 8), (8, 2 ^ 64 - 8), (0, 8)] ∧
      ¬ Runs.Meets step Safe (new 1 1) [] wrappingRequests ∧
      (Runs.run step (new 1 1) threeAligned).2 = [(0, 1), (1, 1)] ∧
      ¬ Runs.Meets step Safe (new 1 1) [] threeAligned := by
  refine ⟨by decide +kernel, ?_, by decide +kernel, ?_⟩
  · rintro ⟨-, hsafe, -⟩
    exact absurd hsafe.fits.2 (by decide +kernel)
  · rintro ⟨-, hsafe, -⟩
    obtain ⟨-, hmod, -⟩ := hsafe.granted 1 1 (by decide +kernel)
    exact absurd hmod (by decide)

end NpuDevice
end UniBus
