import Mathlib.Data.Nat.Digits.Defs
import Mathlib.Tactic

/-!
# Hexadecimal numbers in text

`hex width n` writes a number with lower-case digits, filled up with zeros to
the given width. `fromStrRadix bound` reads the text of a number below `bound`:
digits of either case after an optional plus sign.
-/
namespace Hex

inductive ParseIntError
  | empty
  | invalidDigit
  | posOverflow
  deriving DecidableEq, Repr

def ParseIntError.display : ParseIntError → String
  | empty => "cannot parse integer from empty string"
  | invalidDigit => "invalid digit found in string"
  | posOverflow => "number too large to fit in target type"

def toDigit (c : Char) : Option ℕ :=
  if '0' ≤ c ∧ c ≤ '9' then some (c.toNat - 48)
  else if 'a' ≤ c ∧ c ≤ 'f' then some (c.toNat - 87)
  else if 'A' ≤ c ∧ c ≤ 'F' then some (c.toNat - 55)
  else none

/-- The digits after those that gave `acc`. A character that is no digit is
reported before an overflow at the same place. -/
def parseDigits (bound : ℕ) : ℕ → List Char → Except ParseIntError ℕ
  | acc, [] => .ok acc
  | acc, c :: cs =>
    match toDigit c with
    | none => .error .invalidDigit
    | some d =>
      if acc * 16 + d < bound then parseDigits bound (acc * 16 + d) cs else .error .posOverflow

def fromStrRadix (bound : ℕ) (src : List Char) : Except ParseIntError ℕ :=
  match src with
  | [] => .error .empty
  | c :: digits =>
    if digits = [] ∧ (c = '+' ∨ c = '-') then .error .invalidDigit
    else if c = '+' then parseDigits bound 0 digits
    else parseDigits bound 0 (c :: digits)

def hex (width n : ℕ) : List Char := (Nat.toDigits 16 n).leftpad width '0'

theorem toDigit_digitChar {d : ℕ} (h : d < 16) : toDigit d.digitChar = some d := by
  interval_cases d <;> rfl

variable {bound : ℕ}

theorem parseDigits_append (acc : ℕ) (cs ds : List Char) :
    parseDigits bound acc (cs ++ ds) =
      (parseDigits bound acc cs).bind fun v => parseDigits bound v ds := by
  induction cs generalizing acc with
  | nil => rfl
  | cons c cs ih =>
    rw [List.cons_append, parseDigits, parseDigits]
    cases toDigit c with
    | none => rfl
    | some d =>
      by_cases h : acc * 16 + d < bound
      · simp only [if_pos h, ih]
      · simp only [if_neg h]
        rfl

theorem parseDigits_digitChar {acc d : ℕ} (hd : d < 16) (h : acc * 16 + d < bound) :
    parseDigits bound acc [d.digitChar] = .ok (acc * 16 + d) := by
  simp only [parseDigits, toDigit_digitChar hd, if_pos h]

theorem parseDigits_toDigits {n : ℕ} (h : n < bound) :
    parseDigits bound 0 (Nat.toDigits 16 n) = .ok n := by
  induction n using Nat.strong_induction_on with
  | _ n ih =>
    rw [Nat.toDigits_eq_if (by decide)]
    split_ifs with hn
    · rw [parseDigits_digitChar hn (by omega)]
      simp
    · -- the last digit goes onto the value of the digits before it
      rw [parseDigits_append, ih (n / 16) (by omega) (by omega), Except.bind,
        parseDigits_digitChar (Nat.mod_lt n (by decide)) (by omega), Nat.div_add_mod']

theorem parseDigits_zeros (h : 0 < bound) (k : ℕ) :
    parseDigits bound 0 (List.replicate k '0') = .ok 0 := by
  induction k with
  | zero => rfl
  | succ k ih =>
    have hzero : parseDigits bound 0 ['0'] = .ok 0 := parseDigits_digitChar (d := 0) (by decide) h
    rw [List.replicate_succ, ← List.singleton_append, parseDigits_append, hzero]
    exact ih

theorem parseDigits_hex (width : ℕ) {n : ℕ} (h : n < bound) :
    parseDigits bound 0 (hex width n) = .ok n := by
  rw [hex, List.leftpad, parseDigits_append, parseDigits_zeros (by omega)]
  exact parseDigits_toDigits h

theorem isSome_of_parseDigits {cs : List Char} {acc v : ℕ}
    (h : parseDigits bound acc cs = .ok v) {c : Char} (hc : c ∈ cs) : (toDigit c).isSome := by
  induction cs generalizing acc with
  | nil => simp at hc
  | cons c' cs ih =>
    rw [parseDigits] at h
    cases hd : toDigit c' with
    | none => simp [hd] at h
    | some d =>
      simp only [hd] at h
      split_ifs at h
      rcases List.mem_cons.mp hc with rfl | hc
      · rw [hd]
        rfl
      · exact ih h hc

theorem isSome_of_mem_hex {width n : ℕ} {c : Char} (hc : c ∈ hex width n) :
    (toDigit c).isSome :=
  isSome_of_parseDigits (parseDigits_hex width (Nat.lt_succ_self n)) hc

theorem hex_ne_nil (width n : ℕ) : hex width n ≠ [] := by
  intro hnil
  have hlen : (hex width n).length = 0 := by rw [hnil, List.length_nil]
  have hdigits : Nat.toDigits 16 n ≠ [] := Nat.toDigits_ne_nil
  rw [hex, List.length_leftpad] at hlen
  exact hdigits (List.length_eq_zero_iff.mp (by omega))

/-- A text that starts with a digit has no sign to take off. -/
theorem fromStrRadix_of_isSome {c : Char} (cs : List Char) (h : (toDigit c).isSome) :
    fromStrRadix bound (c :: cs) = parseDigits bound 0 (c :: cs) := by
  have hplus : c ≠ '+' := by
    rintro rfl
    exact absurd h (by decide)
  have hminus : c ≠ '-' := by
    rintro rfl
    exact absurd h (by decide)
  rw [fromStrRadix, if_neg (by simp [hplus, hminus]), if_neg hplus]

theorem fromStrRadix_hex (width : ℕ) {n : ℕ} (h : n < bound) :
    fromStrRadix bound (hex width n) = .ok n := by
  obtain ⟨c, cs, hcons⟩ := List.exists_cons_of_ne_nil (hex_ne_nil width n)
  have hmem : c ∈ hex width n := by
    rw [hcons]
    exact List.mem_cons_self
  rw [hcons, fromStrRadix_of_isSome cs (isSome_of_mem_hex hmem), ← hcons]
  exact parseDigits_hex width h

end Hex
