import Mathlib.Data.List.MinMax
import OpenAirplay.Wire

/-!
# The clock model

The offset of the client's clock from ours, from the timing exchange, and the instant a
sync packet anchors a timestamp to. Times are nanoseconds.
-/

namespace OpenAirplay

set_option autoImplicit false

/-- A 32.32 fixed-point NTP timestamp in nanoseconds. -/
def ntpToNs (seconds fraction : U32) : Nat :=
  seconds.toNat * 1000000000 + fraction.toNat * 1000000000 / 2 ^ 32

/-- The other way round. -/
def nsToNtp (ns : Nat) : U32 × U32 :=
  let seconds := BitVec.ofNat 32 (ns / 1000000000)
  let fracNs := ns % 1000000000
  let fraction := BitVec.ofNat 32 (fracNs * 2 ^ 32 / 1000000000)
  (seconds, fraction)

inductive Fault where
  | divideByZero
  deriving DecidableEq

/-- The quotient towards zero; a division by zero panics. -/
def divide (a b : Int) : Except Fault Int :=
  if b = 0 then .error .divideByZero else .ok (a.tdiv b)

/-- How many recent timing samples are kept. -/
def window : Nat := 8

/-- `offset` is the client's clock less ours. -/
structure Sample where
  rtt : Nat
  offset : Int
  deriving DecidableEq

structure ClockModel where
  sampleRate : U32
  samples : List Sample
  offset : Option Int
  anchor : Option (Nat × U32)

/-- The sample of one exchange, unless a duration in it would be negative. -/
def Sample.measure (t1 t2 t3 t4 : Nat) : Option Sample :=
  if t1 ≤ t4 ∧ t2 ≤ t3 then
    if t3 - t2 ≤ t4 - t1 then
      let rtt := t4 - t1 - (t3 - t2)
      some ⟨rtt, (t3 : Int) + (rtt / 2 : Nat) - t4⟩
    else none
  else none

namespace ClockModel

def new (sampleRate : U32) : ClockModel := ⟨sampleRate, [], none, none⟩

def keep (samples : List Sample) (sample : Sample) : List Sample :=
  (if samples.length = window then samples.tail else samples) ++ [sample]

/-- The offset in force is that of the first sample of the lowest round trip. -/
def addTiming (m : ClockModel) (t1 t2 t3 t4 : Nat) : ClockModel :=
  match Sample.measure t1 t2 t3 t4 with
  | none => m
  | some sample =>
    let samples := keep m.samples sample
    { m with samples := samples, offset := (samples.argmin Sample.rtt).map Sample.offset }

def setAnchor (m : ClockModel) (remoteTimeNs : Nat) (rtpAtDac : U32) : ClockModel :=
  { m with anchor := some (remoteTimeNs, rtpAtDac) }

def isReady (m : ClockModel) : Bool := m.offset.isSome && m.anchor.isSome

/-- The local instant at which the frame `rtp` should reach the DAC, if it is known. -/
def playTime (m : ClockModel) (rtp : U32) : Except Fault (Option Nat) :=
  match m.offset, m.anchor with
  | some offset, some (remoteSyncNs, rtpAnchor) => do
    let localAnchor := (remoteSyncNs : Int) - offset
    -- signed frame distance, across the wrap of the timestamps
    let deltaFrames := (rtp - rtpAnchor).toInt
    let deltaNs ← divide (deltaFrames * 1000000000) m.sampleRate.toNat
    let play := localAnchor + deltaNs
    return if 0 ≤ play then some (play.toNat % 2 ^ 64) else none
  | _, _ => return none

/-- A sample rate of 0 is all that can go wrong. -/
theorem sampleRate_of_fault {m : ClockModel} {rtp : U32} {fault : Fault}
    (h : m.playTime rtp = .error fault) : m.sampleRate = 0 := by
  obtain ⟨rate, samples, offset, anchor⟩ := m
  unfold playTime at h
  split at h
  · by_contra hrate
    have hne : (rate.toNat : Int) ≠ 0 := by
      rw [Nat.cast_ne_zero]
      exact fun hzero => hrate (BitVec.eq_of_toNat_eq hzero)
    simp only [divide, if_neg hne] at h
    cases h
  · cases h

theorem mem_keep {samples : List Sample} {sample s : Sample} (h : s ∈ keep samples sample) :
    s ∈ samples ∨ s = sample := by
  rw [keep, List.mem_append, List.mem_singleton] at h
  refine h.imp_left fun hs => ?_
  split at hs
  · exact List.mem_of_mem_tail hs
  · exact hs

end ClockModel

end OpenAirplay
