import Mathlib.Tactic

/-!
# Fixed-width big-endian byte strings

`put k v` is the `k` least significant bytes of `v`, most significant first,
and `get` reads a byte string back as a number. A cursor is a list of the
bytes not yet read; `read` consumes a fixed number of them.
-/
namespace BigEndian

def put : ℕ → ℕ → List UInt8
  | 0, _ => []
  | k + 1, v => UInt8.ofNat (v / 256 ^ k) :: put k v

def get (bs : List UInt8) : ℕ := bs.foldl (fun acc b => acc * 256 + b.toNat) 0

/-- Takes the next `k` bytes of a cursor, if there are that many. -/
def read (k : ℕ) (cursor : List UInt8) : Option (ℕ × List UInt8) :=
  if cursor.length < k then none else some (get (cursor.take k), cursor.drop k)

@[simp] theorem length_put (k v : ℕ) : (put k v).length = k := by
  induction k with
  | zero => rfl
  | succ k ih => simp [put, ih]

theorem foldl_get (bs : List UInt8) (acc : ℕ) :
    bs.foldl (fun acc b => acc * 256 + b.toNat) acc = acc * 256 ^ bs.length + get bs := by
  induction bs generalizing acc with
  | nil => simp [get]
  | cons b bs ih =>
    simp only [get, List.foldl_cons, List.length_cons]
    rw [ih, ih (0 * 256 + b.toNat)]
    ring

theorem get_cons (b : UInt8) (bs : List UInt8) :
    get (b :: bs) = b.toNat * 256 ^ bs.length + get bs := by
  rw [get, List.foldl_cons, foldl_get]
  ring

theorem get_lt (bs : List UInt8) : get bs < 256 ^ bs.length := by
  induction bs with
  | nil => simp [get]
  | cons b bs ih =>
    rw [get_cons, List.length_cons, pow_succ]
    have hb : b.toNat < 256 := b.toNat_lt
    calc
      b.toNat * 256 ^ bs.length + get bs < b.toNat * 256 ^ bs.length + 256 ^ bs.length :=
        Nat.add_lt_add_left ih _
      _ = (b.toNat + 1) * 256 ^ bs.length := by ring
      _ ≤ 256 * 256 ^ bs.length := Nat.mul_le_mul_right _ hb
      _ = 256 ^ bs.length * 256 := Nat.mul_comm _ _

theorem get_put (k v : ℕ) : get (put k v) = v % 256 ^ k := by
  induction k with
  | zero => simp [put, get, Nat.mod_one]
  | succ k ih =>
    rw [put, get_cons, length_put, ih, UInt8.toNat_ofNat', pow_succ 256 k, Nat.mod_mul,
      Nat.add_comm, Nat.mul_comm]

/-- Only the low `k` bytes of the number matter. -/
theorem put_congr {k u v : ℕ} (h : u % 256 ^ k = v % 256 ^ k) : put k u = put k v := by
  induction k with
  | zero => rfl
  | succ k ih =>
    have hlow : u % 256 ^ k = v % 256 ^ k := by
      have := congrArg (· % 256 ^ k) h
      simpa [pow_succ, Nat.mod_mul_right_mod] using this
    have hhigh : u / 256 ^ k % 256 = v / 256 ^ k % 256 := by
      have := congrArg (· / 256 ^ k) h
      simpa [pow_succ, Nat.mod_mul_right_div_self] using this
    rw [put, put, ih hlow]
    congr 1
    apply UInt8.toNat_inj.mp
    simpa [UInt8.toNat_ofNat'] using hhigh

theorem put_get (bs : List UInt8) : put bs.length (get bs) = bs := by
  induction bs with
  | nil => rfl
  | cons b bs ih =>
    have hlt := get_lt bs
    have hpos : 0 < 256 ^ bs.length := by positivity
    rw [List.length_cons, put, get_cons]
    congr 1
    · rw [Nat.mul_comm, Nat.mul_add_div hpos, Nat.div_eq_of_lt hlt]
      simp
    · conv_rhs => rw [← ih]
      exact put_congr (by rw [Nat.mul_comm, Nat.mul_add_mod])

@[simp] theorem read_put_append (k v : ℕ) (rest : List UInt8) :
    read k (put k v ++ rest) = some (v % 256 ^ k, rest) := by
  have htake : (put k v ++ rest).take k = put k v := List.take_left' (length_put k v)
  have hdrop : (put k v ++ rest).drop k = rest := List.drop_left' (length_put k v)
  rw [read, if_neg (by simp), htake, hdrop, get_put]

end BigEndian
