import OpenAirplay.Clock

/-!
# NTP timestamps and nanoseconds

Both conversions round down, one to 2⁻³² of a second and one to a nanosecond. This module
bounds what is lost on the way there and back, and shows that 64 bits are enough for it.
-/

namespace OpenAirplay

set_option autoImplicit false

/-! ## Parts of a second -/

section Parts

variable {n : Nat}

theorem fraction_scaled_lt (h : n < 2 ^ 32) : n * 1000000000 < 2 ^ 64 := by omega

theorem nanos_scaled_lt (h : n < 1000000000) : n * 2 ^ 32 < 2 ^ 64 := by omega

/-- They never carry into the seconds. -/
theorem fraction_nanos_lt (h : n < 2 ^ 32) : n * 1000000000 / 2 ^ 32 < 1000000000 := by omega

theorem nanos_fraction_lt (h : n < 1000000000) : n * 2 ^ 32 / 1000000000 < 2 ^ 32 := by omega

theorem nanos_back (n : Nat) :
    n * 2 ^ 32 / 1000000000 * 1000000000 / 2 ^ 32 = n ∨
      n * 2 ^ 32 / 1000000000 * 1000000000 / 2 ^ 32 + 1 = n := by omega

theorem fraction_back (n : Nat) :
    n * 1000000000 / 2 ^ 32 * 2 ^ 32 / 1000000000 ≤ n ∧
      n ≤ n * 1000000000 / 2 ^ 32 * 2 ^ 32 / 1000000000 + 5 := by omega

theorem seconds_lt (h : n < 2 ^ 32 * 1000000000) : n / 1000000000 < 2 ^ 32 := by omega

end Parts

/-! ## In 64 bits -/

/-- A value of a `u64`, if it is one. -/
def u64 (n : Nat) : Option Nat := if n < 2 ^ 64 then some n else none

theorem u64_of_lt {n : Nat} (h : n < 2 ^ 64) : u64 n = some n := if_pos h

theorem ntpToNs_lt (seconds fraction : U32) : ntpToNs seconds fraction < 2 ^ 32 * 1000000000 := by
  have hs := seconds.isLt
  have hcarry := fraction_nanos_lt fraction.isLt
  rw [ntpToNs]
  generalize fraction.toNat * 1000000000 / 2 ^ 32 = nanos at hcarry
  omega

namespace Checked

def ntpToNs (seconds fraction : U32) : Option Nat := do
  let whole ← u64 (seconds.toNat * 1000000000)
  let scaled ← u64 (fraction.toNat * 1000000000)
  u64 (whole + scaled / 2 ^ 32)

def nsToNtp (ns : Nat) : Option (U32 × U32) := do
  let ns ← u64 ns
  let scaled ← u64 (ns % 1000000000 * 2 ^ 32)
  some (BitVec.ofNat 32 (ns / 1000000000), BitVec.ofNat 32 (scaled / 1000000000))

theorem ntpToNs_eq (seconds fraction : U32) :
    ntpToNs seconds fraction = some (OpenAirplay.ntpToNs seconds fraction) := by
  have hsum : OpenAirplay.ntpToNs seconds fraction < 2 ^ 64 :=
    (ntpToNs_lt seconds fraction).trans (by decide)
  rw [OpenAirplay.ntpToNs] at hsum ⊢
  rw [ntpToNs, u64_of_lt (fraction_scaled_lt seconds.isLt),
    u64_of_lt (fraction_scaled_lt fraction.isLt), Option.bind_eq_bind, Option.bind_some,
    Option.bind_some, u64_of_lt hsum]

theorem nsToNtp_eq {ns : Nat} (h : ns < 2 ^ 64) : nsToNtp ns = some (OpenAirplay.nsToNtp ns) := by
  have hmod : ns % 1000000000 < 1000000000 := Nat.mod_lt ns (by decide)
  rw [nsToNtp, u64_of_lt h, Option.bind_eq_bind, Option.bind_some,
    u64_of_lt (nanos_scaled_lt hmod), Option.bind_some, OpenAirplay.nsToNtp]

end Checked

/-! ## What is lost -/

theorem nsToNtp_seconds {ns : Nat} (h : ns < 2 ^ 32 * 1000000000) :
    (nsToNtp ns).1.toNat = ns / 1000000000 := by
  rw [nsToNtp, BitVec.toNat_ofNat, Nat.mod_eq_of_lt (seconds_lt h)]

theorem nsToNtp_fraction (ns : Nat) :
    (nsToNtp ns).2.toNat = ns % 1000000000 * 2 ^ 32 / 1000000000 := by
  have hmod : ns % 1000000000 < 1000000000 := Nat.mod_lt ns (by decide)
  rw [nsToNtp, BitVec.toNat_ofNat, Nat.mod_eq_of_lt (nanos_fraction_lt hmod)]

theorem ntpToNs_nsToNtp {ns : Nat} (h : ns < 2 ^ 32 * 1000000000) :
    ntpToNs (nsToNtp ns).1 (nsToNtp ns).2 = ns ∨
      ntpToNs (nsToNtp ns).1 (nsToNtp ns).2 + 1 = ns := by
  rw [ntpToNs, nsToNtp_seconds h, nsToNtp_fraction]
  have hsplit : ns / 1000000000 * 1000000000 + ns % 1000000000 = ns := Nat.div_add_mod' ns _
  rcases nanos_back (ns % 1000000000) with hback | hback
  · left
    rw [hback, hsplit]
  · right
    rw [Nat.add_assoc, hback, hsplit]

theorem nsToNtp_ntpToNs (seconds fraction : U32) :
    (nsToNtp (ntpToNs seconds fraction)).1 = seconds ∧
      (nsToNtp (ntpToNs seconds fraction)).2.toNat ≤ fraction.toNat ∧
      fraction.toNat ≤ (nsToNtp (ntpToNs seconds fraction)).2.toNat + 5 := by
  have hcarry := fraction_nanos_lt fraction.isLt
  have hdiv : ntpToNs seconds fraction / 1000000000 = seconds.toNat := by
    rw [ntpToNs, Nat.mul_comm, Nat.mul_add_div (by decide), Nat.div_eq_of_lt hcarry, Nat.add_zero]
  have hmod : ntpToNs seconds fraction % 1000000000 = fraction.toNat * 1000000000 / 2 ^ 32 := by
    rw [ntpToNs, Nat.mul_add_mod', Nat.mod_eq_of_lt hcarry]
  constructor
  · apply BitVec.eq_of_toNat_eq
    rw [nsToNtp_seconds (ntpToNs_lt seconds fraction), hdiv]
  · rw [nsToNtp_fraction, hmod]
    exact fraction_back fraction.toNat

/-- The timestamp as one number, scaled and rounded as a whole. -/
theorem ntpToNs_eq_div (seconds fraction : U32) : ntpToNs seconds fraction =
    (seconds.toNat * 2 ^ 32 + fraction.toNat) * 1000000000 / 2 ^ 32 := by
  rw [ntpToNs, Nat.add_mul, Nat.mul_right_comm, Nat.add_comm (_ * 2 ^ 32),
    Nat.add_mul_div_right _ _ (by decide), Nat.add_comm]

theorem ntpToNs_mono {seconds fraction seconds' fraction' : U32}
    (h : seconds.toNat * 2 ^ 32 + fraction.toNat ≤ seconds'.toNat * 2 ^ 32 + fraction'.toNat) :
    ntpToNs seconds fraction ≤ ntpToNs seconds' fraction' := by
  rw [ntpToNs_eq_div, ntpToNs_eq_div]
  exact Nat.div_le_div_right (Nat.mul_le_mul_right _ h)

/-- There and back in 64 bits at most a nanosecond is lost, back and there at most five steps
of the fraction, and a later timestamp is never an earlier instant. -/
theorem ntp_round_trips :
    (∀ ns < 2 ^ 32 * 1000000000, ∃ seconds fraction back,
        Checked.nsToNtp ns = some (seconds, fraction) ∧
          Checked.ntpToNs seconds fraction = some back ∧ (back = ns ∨ back + 1 = ns)) ∧
      (∀ seconds fraction : U32, ∃ fraction',
        nsToNtp (ntpToNs seconds fraction) = (seconds, fraction') ∧
          fraction'.toNat ≤ fraction.toNat ∧ fraction.toNat ≤ fraction'.toNat + 5) ∧
      ∀ seconds fraction seconds' fraction' : U32,
        seconds.toNat * 2 ^ 32 + fraction.toNat ≤ seconds'.toNat * 2 ^ 32 + fraction'.toNat →
          ntpToNs seconds fraction ≤ ntpToNs seconds' fraction' := by
  refine ⟨?_, ?_, fun _ _ _ _ h => ntpToNs_mono h⟩
  · intro ns hns
    have hns64 : ns < 2 ^ 64 := hns.trans (by decide)
    exact ⟨_, _, _, Checked.nsToNtp_eq hns64, Checked.ntpToNs_eq _ _, ntpToNs_nsToNtp hns⟩
  · intro seconds fraction
    obtain ⟨hseconds, hle, hclose⟩ := nsToNtp_ntpToNs seconds fraction
    exact ⟨_, Prod.ext hseconds rfl, hle, hclose⟩

/-- The nanoseconds of a present-day timestamp. -/
theorem ntp_round_trips_present :
    (∃ seconds fraction back, Checked.nsToNtp 3912345678000000001 = some (seconds, fraction) ∧
      Checked.ntpToNs seconds fraction = some back ∧
        (back = 3912345678000000001 ∨ back + 1 = 3912345678000000001)) ∧
      ntpToNs 5 0 ≤ ntpToNs 5 0x80000000 :=
  ⟨ntp_round_trips.1 3912345678000000001 (by decide),
    ntp_round_trips.2.2 5 0 5 0x80000000 (by decide)⟩

end OpenAirplay
