import Mathlib.Logic.Function.Basic

/-!
# A flag with an owner

Several parties share a flag. Taking it and giving it back go through the party that
holds it, so that at most one does and the flag is set exactly while somebody does.
-/

set_option autoImplicit false

namespace Ownership

universe u

variable {ι : Type u}

/-- What one party does to its own hold and to the flag. -/
inductive Takes (hold flag hold' flag' : Bool) : Prop where
  | keeps : hold' = hold → flag' = flag → Takes hold flag hold' flag'
  | acquires : hold = false → flag = false → hold' = true → flag' = true →
    Takes hold flag hold' flag'
  | releases : hold = true → hold' = false → flag' = false → Takes hold flag hold' flag'

/-- The flag is set exactly while some party holds it, and never two do. -/
structure Owned (holds : ι → Bool) (flag : Bool) : Prop where
  flag_iff : flag = true ↔ ∃ i, holds i = true
  unique : ∀ i j, holds i = true → holds j = true → i = j

theorem Owned.start : Owned (fun _ : ι => false) false := ⟨by simp, by simp⟩

theorem Owned.not_held {holds : ι → Bool} (h : Owned holds false) (i : ι) : holds i = false := by
  cases hi : holds i with
  | false => rfl
  | true => exact absurd (h.flag_iff.mpr ⟨i, hi⟩) (by decide)

theorem Owned.others {holds : ι → Bool} {flag : Bool} (h : Owned holds flag) {i j : ι}
    (hi : holds i = true) (hj : j ≠ i) : holds j = false := by
  cases hheld : holds j with
  | false => rfl
  | true => exact absurd (h.unique j i hheld hi) hj

variable [DecidableEq ι]

/-- Whatever one party does, the flag stays owned. -/
theorem Owned.takes {holds : ι → Bool} {flag hold' flag' : Bool} {i : ι} (h : Owned holds flag)
    (ht : Takes (holds i) flag hold' flag') : Owned (Function.update holds i hold') flag' := by
  rcases ht with ⟨rfl, rfl⟩ | ⟨_, rfl, rfl, rfl⟩ | ⟨hheld, rfl, rfl⟩
  · rwa [Function.update_eq_self]
  · refine ⟨⟨fun _ => ⟨i, Function.update_self ..⟩, fun _ => rfl⟩, ?_⟩
    intro j k hj hk
    have hsole : ∀ m, Function.update holds i true m = true → m = i := by
      intro m hm
      by_contra hne
      rw [Function.update_of_ne hne, h.not_held m] at hm
      cases hm
    rw [hsole j hj, hsole k hk]
  · have hnone : ∀ j, Function.update holds i false j = false := by
      intro j
      by_cases hj : j = i
      · rw [hj, Function.update_self]
      · rw [Function.update_of_ne hj, h.others hheld hj]
    exact ⟨by simp [hnone], by simp [hnone]⟩

end Ownership
