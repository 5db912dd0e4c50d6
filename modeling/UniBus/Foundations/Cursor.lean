import Mathlib.Data.List.Basic
import Mathlib.Tactic.Basic

/-!
# Readers over a cursor

A reader takes bytes from the front of a cursor and may fail. `Reads r bytes a`
says that `r` takes exactly `bytes` and returns `a`, whatever follows, and
`Takes k r` that it takes at least `k` bytes whenever it succeeds. A record
is written as a list of fields, one after the other, and read by a sequence of
readers; the rules below follow that shape.
-/
namespace Cursor

variable {ε α β : Type}

abbrev Reader (ε α : Type) := StateT (List UInt8) (Except ε) α

/-- Reads `n` values in a row. -/
def many (r : Reader ε α) : ℕ → Reader ε (List α)
  | 0 => pure []
  | n + 1 => do
    let a ← r
    let as ← many r n
    return a :: as

/-- `r` takes exactly `bytes` and returns `a`. -/
def Reads (r : Reader ε α) (bytes : List UInt8) (a : α) : Prop :=
  ∀ rest, r (bytes ++ rest) = .ok (a, rest)

theorem reads_pure (a : α) : Reads (pure a : Reader ε α) [] a := fun _ => rfl

variable {r : Reader ε α} {a : α} {f : α → Reader ε β} {bytes : List UInt8}

theorem Reads.bind {bytes bytes' : List UInt8} {b : β} (h : Reads r bytes a)
    (k : Reads (f a) bytes' b) :
    Reads (r >>= f) (bytes ++ bytes') b := by
  intro rest
  have hfirst : (r >>= f) (bytes ++ (bytes' ++ rest)) = f a (bytes' ++ rest) := by
    simp only [Bind.bind, StateT.bind, h (bytes' ++ rest), Except.bind]
  rw [List.append_assoc, hfirst, k rest]

theorem Reads.map (f : α → β) (h : Reads r bytes a) : Reads (f <$> r) bytes (f a) := by
  intro rest
  simp only [Functor.map, StateT.map, Bind.bind, Except.bind, h rest]
  rfl

theorem Reads.nil (a : α) : Reads (pure a : Reader ε α) [].flatten a := reads_pure a

theorem Reads.cons {fields : List (List UInt8)} {b : β} (h : Reads r bytes a)
    (k : Reads (f a) fields.flatten b) : Reads (r >>= f) (bytes :: fields).flatten b :=
  h.bind k

theorem Reads.many {write : α → List UInt8} {as : List α} (h : ∀ a ∈ as, Reads r (write a) a) :
    Reads (many r as.length) (as.flatMap write) as := by
  induction as with
  | nil => exact reads_pure []
  | cons a as ih =>
    have hrest := ih fun a' ha' => h a' (List.mem_cons_of_mem _ ha')
    have hbytes : (a :: as).flatMap write = [write a, as.flatMap write].flatten := by
      simp
    rw [hbytes]
    exact (h a List.mem_cons_self).cons (hrest.cons (.nil (a :: as)))

theorem Reads.run (h : Reads r bytes a) :
    r bytes = .ok (a, []) := by
  have hall := h []
  rwa [List.append_nil] at hall

/-! ## How much is taken -/

/-- `r` takes at least `k` bytes when it succeeds. -/
def Takes (k : ℕ) (r : Reader ε α) : Prop :=
  ∀ cursor a rest, r cursor = .ok (a, rest) → rest.length + k ≤ cursor.length

/-- `r` takes exactly `width` bytes, and fails only when there are fewer. -/
def TakesJust (width : ℕ) (r : Reader ε α) : Prop :=
  ∀ cursor, (cursor.length < width ∧ ∃ e, r cursor = .error e) ∨
    ∃ a, r cursor = .ok (a, cursor.drop width)

theorem takes_pure (a : α) : Takes 0 (pure a : Reader ε α) := by
  intro cursor a' rest h
  cases h
  exact Nat.le_refl _

theorem takes_throw (k : ℕ) (e : ε) : Takes k (throw e : Reader ε α) := by
  intro cursor a rest h
  cases h

theorem Takes.bind {k l : ℕ} (h : Takes k r) (hf : ∀ a, Takes l (f a)) :
    Takes (k + l) (r >>= f) := by
  intro cursor b rest hb
  simp only [Bind.bind, StateT.bind, Except.bind] at hb
  cases hr : r cursor with
  | error e => simp [hr] at hb
  | ok result =>
    obtain ⟨a, mid⟩ := result
    simp only [hr] at hb
    have hfirst := h cursor a mid hr
    have hsecond := hf a mid b rest hb
    omega

theorem Takes.mono {k l : ℕ} (h : Takes k r) (hle : l ≤ k) : Takes l r := by
  intro cursor a rest hok
  have htaken := h cursor a rest hok
  omega

theorem Takes.many {k : ℕ} (h : Takes k r) (n : ℕ) :
    Takes (n * k) (many r n) := by
  induction n with
  | zero => exact (takes_pure []).mono (by simp)
  | succ n ih =>
    rw [Nat.succ_mul, Nat.add_comm]
    exact h.bind fun a => ih.bind fun as => takes_pure (a :: as)

end Cursor
