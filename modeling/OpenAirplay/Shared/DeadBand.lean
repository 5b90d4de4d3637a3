import Mathlib.Tactic

/-!
# Control with a dead band

A level is disturbed at every step and pushed back by one unit whenever it has left a band
around its target. Disturbances of at most one unit are held at the edge of the band, larger
ones are not held at all.
-/

namespace DeadBand

set_option autoImplicit false

/-- Push up below the band, down above it. -/
def action (target threshold level : Int) : Int :=
  if level < target - threshold then 1 else if target + threshold < level then -1 else 0

/-- How far the level is outside the band. -/
def excess (target threshold level : Int) : Int := max 0 (|level - target| - threshold)

variable {target threshold : Int}

theorem excess_nonneg (target threshold level : Int) : 0 ≤ excess target threshold level :=
  le_max_left _ _

theorem excess_le_iff {level bound : Int} (hbound : 0 ≤ bound) :
    excess target threshold level ≤ bound ↔
      target - threshold - bound ≤ level ∧ level ≤ target + threshold + bound := by
  rw [excess, max_le_iff, and_iff_right hbound, sub_le_iff_le_add, abs_le]
  constructor <;> intro h <;> omega

/-- A push and a disturbance of at most one unit leave the level no further out than it was, or
just outside. -/
theorem excess_step (hthreshold : 0 ≤ threshold) (level : Int) {disturbance : Int}
    (h : |disturbance| ≤ 1) :
    excess target threshold (level + action target threshold level + disturbance) ≤
      max (excess target threshold level) 1 := by
  have hin := (excess_le_iff (excess_nonneg target threshold level)).mp (le_refl _)
  have hpos := excess_nonneg target threshold level
  rw [abs_le] at h
  rw [excess_le_iff (le_max_of_le_right (by decide))]
  have hold := le_max_left (excess target threshold level) 1
  have hone := le_max_right (excess target threshold level) 1
  unfold action
  split
  · omega
  · split <;> omega

variable {level : Nat → Int}

/-- Where small disturbances take the level, from step `start` on. -/
theorem excess_run (level disturbance : Nat → Int) (hthreshold : 0 ≤ threshold) {start last : Nat}
    (hstep : ∀ n, start ≤ n → n < last →
      level (n + 1) = level n + action target threshold (level n) + disturbance n)
    (hsmall : ∀ n, start ≤ n → n < last → |disturbance n| ≤ 1) {n : Nat} (hstart : start ≤ n)
    (hlast : n ≤ last) :
    excess target threshold (level n) ≤ max (excess target threshold (level start)) 1 := by
  induction n, hstart using Nat.le_induction with
  | base => exact le_max_left _ _
  | succ n hn ih =>
    have hbefore := ih (by omega)
    rw [hstep n hn hlast]
    refine (excess_step hthreshold _ (hsmall n hn hlast)).trans ?_
    exact max_le hbefore (le_max_right _ _)

theorem level_rises {s : Int} (hstep : ∀ n, level (n + 1) = level n +
    action target threshold (level n) + s) (hs : 2 ≤ s) (n : Nat) : level 0 + n ≤ level n := by
  induction n with
  | zero => simp
  | succ n ih =>
    have haction : -1 ≤ action target threshold (level n) := by
      unfold action
      split
      · decide
      · split <;> decide
    rw [hstep]
    push_cast
    omega

theorem level_falls {s : Int} (hstep : ∀ n, level (n + 1) = level n +
    action target threshold (level n) + s) (hs : s ≤ -2) (n : Nat) : level n ≤ level 0 - n := by
  induction n with
  | zero => simp
  | succ n ih =>
    have haction : action target threshold (level n) ≤ 1 := by
      unfold action
      split
      · decide
      · split <;> decide
    rw [hstep]
    push_cast
    omega

/-- A lasting disturbance is held exactly when it is at most the push. -/
theorem held_iff (level : Nat → Int) (hthreshold : 0 ≤ threshold) {s : Int}
    (hstep : ∀ n, level (n + 1) = level n + action target threshold (level n) + s) :
    (∃ bound, ∀ n, excess target threshold (level n) ≤ bound) ↔ |s| ≤ 1 := by
  constructor
  · rintro ⟨bound, hbound⟩
    have hpos : 0 ≤ bound := (excess_nonneg _ _ _).trans (hbound 0)
    have hall := fun n => (excess_le_iff hpos).mp (hbound n)
    by_contra hlarge
    rw [not_le, lt_abs] at hlarge
    rcases hlarge with hup | hdown
    · have hrise := level_rises hstep (by omega) (target + threshold + bound - level 0 + 1).toNat
      have hat := (hall (target + threshold + bound - level 0 + 1).toNat).2
      have hzero := (hall 0).2
      omega
    · have hfall := level_falls hstep (by omega) (level 0 - (target - threshold - bound) + 1).toNat
      have hat := (hall (level 0 - (target - threshold - bound) + 1).toNat).1
      have hzero := (hall 0).1
      omega
  · intro hs
    have hrun : ∀ n, excess target threshold (level n) ≤
        max (excess target threshold (level 0)) 1 := fun n =>
      excess_run level (fun _ => s) hthreshold (fun n _ _ => hstep n) (fun _ _ _ => hs)
        (Nat.zero_le n) (le_refl n)
    exact ⟨_, hrun⟩

end DeadBand
