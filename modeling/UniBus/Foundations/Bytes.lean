import UniBus.Foundations.BigEndian

/-!
# Slices of byte strings

Reading and overwriting a range of a byte string in place, and machine words
stored with the least significant byte first.
-/
namespace Bytes

/-- The `n` bytes from position `pos` on, fewer at the end of the string. -/
def slice (bs : List UInt8) (pos n : ℕ) : List UInt8 := (bs.drop pos).take n

/-- Overwrites the bytes from position `pos` on. -/
def splice (bs : List UInt8) (pos : ℕ) (new : List UInt8) : List UInt8 :=
  bs.take pos ++ new ++ bs.drop (pos + new.length)

/-- The word stored in a byte string, least significant byte first. -/
def getLe (bs : List UInt8) : ℕ := BigEndian.get bs.reverse

def putLe (k v : ℕ) : List UInt8 := (BigEndian.put k v).reverse

@[simp] theorem length_putLe (k v : ℕ) : (putLe k v).length = k := by
  simp [putLe]

theorem getLe_putLe (k v : ℕ) : getLe (putLe k v) = v % 256 ^ k := by
  rw [getLe, putLe, List.reverse_reverse, BigEndian.get_put]

variable {bs cs new : List UInt8} {pos n : ℕ}

theorem length_slice (h : pos + n ≤ bs.length) : (slice bs pos n).length = n := by
  rw [slice, List.length_take, List.length_drop]
  omega

theorem length_splice (h : pos + new.length ≤ bs.length) :
    (splice bs pos new).length = bs.length := by
  simp only [splice, List.length_append, List.length_take, List.length_drop]
  omega

theorem getElem?_slice (i : ℕ) : (slice bs pos n)[i]? = if i < n then bs[pos + i]? else none := by
  rw [slice, List.getElem?_take]
  split_ifs
  · rw [List.getElem?_drop]
  · rfl

theorem getElem?_splice_outside (h : pos + new.length ≤ bs.length) {i : ℕ}
    (hi : i < pos ∨ pos + new.length ≤ i) : (splice bs pos new)[i]? = bs[i]? := by
  have htake : (bs.take pos).length = pos := by
    rw [List.length_take]
    omega
  rcases hi with hlt | hge
  · rw [splice, List.append_assoc, List.getElem?_append_left (by omega), List.getElem?_take,
      if_pos hlt]
  · rw [splice, List.getElem?_append_right (by rw [List.length_append]; omega),
      List.getElem?_drop, List.length_append, htake, Nat.add_sub_cancel' hge]

theorem getElem?_splice_inside (h : pos + new.length ≤ bs.length) {i : ℕ}
    (hi : i < new.length) : (splice bs pos new)[pos + i]? = new[i]? := by
  have htake : (bs.take pos).length = pos := by
    rw [List.length_take]
    omega
  rw [splice, List.append_assoc, List.getElem?_append_right (by omega), htake,
    Nat.add_sub_cancel_left, List.getElem?_append_left hi]

theorem slice_congr (h : ∀ i, pos ≤ i → i < pos + n → bs[i]? = cs[i]?) :
    slice bs pos n = slice cs pos n := by
  apply List.ext_getElem?
  intro i
  rw [getElem?_slice, getElem?_slice]
  split_ifs with hi
  · exact h (pos + i) (by omega) (by omega)
  · rfl

theorem slice_splice_outside {k : ℕ} (h : pos + new.length ≤ bs.length)
    (hapart : k + n ≤ pos ∨ pos + new.length ≤ k) : slice (splice bs pos new) k n = slice bs k n :=
  slice_congr fun _ _ _ => getElem?_splice_outside h (by omega)

theorem slice_slice {pos' n' : ℕ} (h : pos' + n' ≤ n) :
    slice (slice bs pos n) pos' n' = slice bs (pos + pos') n' := by
  apply List.ext_getElem?
  intro i
  simp only [getElem?_slice]
  split_ifs with hi hin
  · rw [Nat.add_assoc]
  · omega
  · rfl

theorem slice_splice_inside {k : ℕ} (h : pos + new.length ≤ bs.length) (hk : k + n ≤ new.length) :
    slice (splice bs pos new) (pos + k) n = slice new k n := by
  apply List.ext_getElem?
  intro i
  rw [getElem?_slice, getElem?_slice]
  split_ifs with hi
  · rw [Nat.add_assoc]
    exact getElem?_splice_inside h (by omega)
  · rfl

theorem slice_splice (h : pos + new.length ≤ bs.length) :
    slice (splice bs pos new) pos new.length = new := by
  have hall := slice_splice_inside (k := 0) (n := new.length) h (by omega)
  rw [Nat.add_zero] at hall
  rw [hall, slice, List.drop_zero, List.take_length]

theorem slice_append {as : List UInt8} (has : as.length = pos) (hbs : bs.length = n) :
    slice (as ++ (bs ++ cs)) pos n = bs := by
  rw [slice, List.drop_left' has, List.take_left' hbs]

theorem splice_append {as : List UInt8} (has : as.length = pos) (hbs : bs.length = new.length) :
    splice (as ++ (bs ++ cs)) pos new = as ++ (new ++ cs) := by
  have hdrop : (as ++ (bs ++ cs)).drop (pos + new.length) = cs := by
    rw [← List.drop_drop, List.drop_left' has, List.drop_left' hbs]
  rw [splice, hdrop, List.take_left' has, List.append_assoc]

end Bytes
