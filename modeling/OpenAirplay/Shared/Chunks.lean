import Mathlib.Tactic

/-!
# Chunks of a list

A list cut from the front into pieces of one length, the last of them shorter where it does
not come out even.
-/

namespace Chunks

set_option autoImplicit false

universe u

variable {A : Type u} {n : Nat} {xs piece : List A}

/-- How many pieces of `n` cover `length`. -/
def count (n length : Nat) : Nat := (length + n - 1) / n

def chunks (n : Nat) (xs : List A) : List (List A) :=
  (List.range (count n xs.length)).map fun i => (xs.drop (n * i)).take n

theorem lt_count_iff (hn : 0 < n) {i length : Nat} : i < count n length ↔ n * i < length := by
  rw [count, ← Nat.succ_le_iff, Nat.le_div_iff_mul_le hn, Nat.succ_mul, Nat.mul_comm]
  omega

theorem count_pos (hn : 0 < n) {length : Nat} : 0 < count n length ↔ 0 < length := by
  rw [lt_count_iff hn, Nat.mul_zero]

theorem chunks_ne_nil (hn : 0 < n) (h : xs ≠ []) : chunks n xs ≠ [] := by
  have hpos := (count_pos hn).mpr (List.length_pos_of_ne_nil h)
  simpa [chunks] using hpos.ne'

/-- The first `k` pieces are the first `n * k` symbols. -/
theorem flatten_take (n k : Nat) (xs : List A) :
    ((List.range k).map fun i => (xs.drop (n * i)).take n).flatten = xs.take (n * k) := by
  induction k with
  | zero => simp
  | succ k ih =>
    rw [List.range_succ, List.map_append, List.flatten_append, ih, Nat.mul_succ, List.take_add]
    simp

theorem flatten_chunks (hn : 0 < n) (xs : List A) : (chunks n xs).flatten = xs := by
  rw [chunks, flatten_take]
  apply List.take_of_length_le
  by_contra hlt
  exact lt_irrefl _ ((lt_count_iff hn).mpr (not_le.mp hlt))

theorem length_le_of_mem (h : piece ∈ chunks n xs) : piece.length ≤ n := by
  obtain ⟨i, _, rfl⟩ := List.mem_map.mp h
  exact List.length_take_le _ _

theorem ne_nil_of_mem (hn : 0 < n) (h : piece ∈ chunks n xs) : piece ≠ [] := by
  obtain ⟨i, hi, rfl⟩ := List.mem_map.mp h
  have hlt := (lt_count_iff hn).mp (List.mem_range.mp hi)
  apply List.ne_nil_of_length_pos
  rw [List.length_take, List.length_drop]
  omega

/-- Every piece but the last is full. -/
theorem length_of_mem_dropLast (hn : 0 < n) (h : piece ∈ (chunks n xs).dropLast) :
    piece.length = n := by
  rw [chunks, ← List.map_dropLast] at h
  obtain ⟨i, hi, rfl⟩ := List.mem_map.mp h
  have hnext : i + 1 < count n xs.length := by
    rw [List.dropLast_eq_take, List.length_range, List.take_range, List.mem_range] at hi
    omega
  have hlt := (lt_count_iff hn).mp hnext
  rw [Nat.mul_succ] at hlt
  rw [List.length_take, List.length_drop]
  omega

end Chunks
