import Mathlib.Data.BitVec
import Mathlib.Tactic

/-!
# Serial numbers on a circle of `2^w` values

Wire counters wrap, so a counter value names a place in an unbounded stream only
relative to a base. `place base i` is the value at stream position `i`, and
`diff a b` is the signed circular distance from `b` to `a`. The two agree as long
as the positions compared are less than half a circle apart.
-/

namespace SerialNumber

set_option autoImplicit false

variable {w : Nat}

/-- Signed distance from `b` to `a`, positive when `a` is ahead of `b`. -/
def diff (a b : BitVec w) : Int := (a - b).toInt

/-- The number at stream position `i`, counting from `base`. -/
def place (base : BitVec w) (i : Nat) : BitVec w := base + BitVec.ofNat w i

@[simp] theorem diff_self (a : BitVec w) : diff a a = 0 := by simp [diff]

@[simp] theorem place_zero (base : BitVec w) : place base 0 = base := by simp [place]

theorem place_add (base : BitVec w) (i j : Nat) :
    place base (i + j) = place (place base i) j := by
  simp [place, BitVec.ofNat_add, BitVec.add_assoc]

theorem place_succ (base : BitVec w) (i : Nat) : place base (i + 1) = place base i + 1 := by
  rw [place_add]
  simp [place]

theorem place_of_succ (base : BitVec w) (i : Nat) : place (base + 1) i = place base (i + 1) := by
  rw [Nat.add_comm i 1, place_add, place_succ, place_zero]

theorem place_toNat (base : BitVec w) (i : Nat) :
    (place base i).toNat = (base.toNat + i) % 2 ^ w := by
  simp [place, BitVec.toNat_add]

theorem place_sub_place (base : BitVec w) (i j : Nat) :
    place base i - place base j = BitVec.ofInt w ((i : Int) - j) := by
  rw [Int.sub_eq_add_neg, BitVec.ofInt_add, BitVec.ofInt_neg, BitVec.ofInt_natCast,
    BitVec.ofInt_natCast, ← BitVec.sub_eq_add_neg]
  exact add_sub_add_left_eq_sub (BitVec.ofNat w i) (BitVec.ofNat w j) base

theorem diff_place (base : BitVec w) (i j : Nat) :
    diff (place base i) (place base j) = ((i : Int) - j).bmod (2 ^ w) := by
  rw [diff, place_sub_place, BitVec.toInt_ofInt]

theorem bmod_of_half {m : Nat} {z : Int} (hlo : -(m : Int) ≤ 2 * z) (hhi : 2 * z < m) :
    z.bmod m = z := by
  apply Int.bmod_eq_of_le <;> omega

/-- Less than half a circle apart, the circular distance is the real one. -/
theorem diff_place_of_half (base : BitVec w) {i j : Nat}
    (hlo : 2 * j ≤ 2 * i + 2 ^ w) (hhi : 2 * i < 2 * j + 2 ^ w) :
    diff (place base i) (place base j) = (i : Int) - j := by
  have hlo' : (2 : Int) * j ≤ 2 * i + 2 ^ w := by exact_mod_cast hlo
  have hhi' : (2 : Int) * i < 2 * j + 2 ^ w := by exact_mod_cast hhi
  rw [diff_place]
  apply bmod_of_half <;> push_cast <;> omega

theorem diff_place_base (base : BitVec w) (i : Nat) :
    diff (place base i) base = (i : Int).bmod (2 ^ w) := by
  have h := diff_place base i 0
  simpa using h

/-- From half a circle on, a number ahead reads as one behind. -/
theorem diff_place_of_wrapped (base : BitVec w) {i j : Nat}
    (hlo : 2 * j + 2 ^ w ≤ 2 * i) (hhi : i < j + 2 ^ w) :
    diff (place base i) (place base j) = (i : Int) - j - 2 ^ w := by
  have hshift : ((i : Int) - j).bmod (2 ^ w) = ((i : Int) - j - 2 ^ w).bmod (2 ^ w) := by
    have h := Int.sub_bmod_right ((i : Int) - j) (2 ^ w)
    push_cast at h
    exact h.symm
  have hlo' : (2 : Int) * j + 2 ^ w ≤ 2 * i := by exact_mod_cast hlo
  have hhi' : (i : Int) < j + 2 ^ w := by exact_mod_cast hhi
  rw [diff_place, hshift]
  apply bmod_of_half <;> push_cast <;> omega

/-- A number at or ahead of `b` is the place that many positions after `b`. -/
theorem place_diff {a b : BitVec w} (h : 0 ≤ diff a b) : place b (diff a b).toNat = a := by
  unfold diff at h ⊢
  have hnat : (a - b).toInt.toNat = (a - b).toNat := by
    rw [BitVec.toInt_eq_toNat_cond] at h ⊢
    have hlt := (a - b).isLt
    split at h <;> rename_i hcond <;> simp only [hcond, if_true, if_false] <;> omega
  rw [place, hnat, BitVec.ofNat_toNat, BitVec.setWidth_eq]
  exact add_sub_cancel b a

end SerialNumber
