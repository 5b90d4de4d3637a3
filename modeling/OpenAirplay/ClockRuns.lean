import Mathlib.Data.List.DropRight
import OpenAirplay.Shared.SerialNumber
import OpenAirplay.Timing

/-!
# Whole runs of the clock model

The offset over any sequence of exchanges, and the instants it gives the frames of a stream
around a sync anchor, on both sides of the wrap of the timestamps.
-/

namespace OpenAirplay

open Rtp

set_option autoImplicit false

/-! ## The offset -/

inductive ClockCall where
  | addTiming (t1 t2 t3 t4 : Nat)
  | setAnchor (remoteTimeNs : Nat) (rtpAtDac : U32)

namespace ClockCall

def sample? : ClockCall → Option Sample
  | .addTiming t1 t2 t3 t4 => Sample.measure t1 t2 t3 t4
  | .setAnchor _ _ => none

/-- The exchange is with a client whose clock is ahead of ours by `offset`. -/
def FromClient (offset : Int) : ClockCall → Prop
  | .addTiming t1 t2 t3 t4 => ∃ received transmitted : Nat, t1 ≤ received ∧
      received ≤ transmitted ∧ transmitted ≤ t4 ∧ (t2 : Int) = received + offset ∧
      (t3 : Int) = transmitted + offset
  | .setAnchor _ _ => True

end ClockCall

/-- A duration in the exchange is negative. -/
def IllFormed (t1 t2 t3 t4 : Nat) : Prop := t4 < t1 ∨ t3 < t2 ∨ t4 - t1 < t3 - t2

theorem measure_eq_none_iff {t1 t2 t3 t4 : Nat} :
    Sample.measure t1 t2 t3 t4 = none ↔ IllFormed t1 t2 t3 t4 := by
  unfold Sample.measure IllFormed
  split
  · rename_i hordered
    split
    · simp only [reduceCtorEq, false_iff]
      omega
    · simp only [true_iff]
      omega
  · simp only [true_iff]
    omega

namespace ClockModel

def call (m : ClockModel) : ClockCall → ClockModel
  | .addTiming t1 t2 t3 t4 => m.addTiming t1 t2 t3 t4
  | .setAnchor remoteTimeNs rtpAtDac => m.setAnchor remoteTimeNs rtpAtDac

def after (sampleRate : U32) (calls : List ClockCall) : ClockModel :=
  calls.foldl call (.new sampleRate)

/-- The samples of the last well-formed exchanges. -/
def recent (calls : List ClockCall) : List Sample := (calls.filterMap ClockCall.sample?).rtake window

theorem keep_rtake (samples : List Sample) (sample : Sample) :
    keep (samples.rtake window) sample = (samples ++ [sample]).rtake window := by
  have hlen : (samples.rtake window).length = min samples.length window := by
    rw [List.rtake, List.length_drop]
    omega
  unfold keep
  rw [hlen]
  simp only [List.rtake, List.length_append, List.length_singleton]
  rcases Nat.lt_or_ge samples.length window with hshort | hfull
  · rw [if_neg (by omega), Nat.sub_eq_zero_of_le hshort.le, Nat.sub_eq_zero_of_le hshort,
      List.drop_zero, List.drop_zero]
  · rw [if_pos (by omega), List.tail_drop, List.drop_append_of_le_length (by simp [window]),
      Nat.sub_add_comm hfull]

theorem after_snoc (sampleRate : U32) (calls : List ClockCall) (c : ClockCall) :
    after sampleRate (calls ++ [c]) = (after sampleRate calls).call c := by
  simp [after, List.foldl_append]

theorem recent_snoc (calls : List ClockCall) (c : ClockCall) :
    recent (calls ++ [c]) = match c.sample? with
      | none => recent calls
      | some sample => keep (recent calls) sample := by
  unfold recent
  rw [List.filterMap_append]
  cases hsample : c.sample? with
  | none => simp [hsample]
  | some sample => simp [hsample, keep_rtake]

theorem after_spec (sampleRate : U32) (calls : List ClockCall) :
    (after sampleRate calls).samples = recent calls ∧
      (after sampleRate calls).offset = ((recent calls).argmin Sample.rtt).map Sample.offset := by
  induction calls using List.reverseRecOn with
  | nil => exact ⟨rfl, rfl⟩
  | append_singleton calls c ih =>
    rw [after_snoc, recent_snoc]
    cases c with
    | setAnchor remoteTimeNs rtpAtDac => exact ih
    | addTiming t1 t2 t3 t4 =>
      cases hmeasure : Sample.measure t1 t2 t3 t4 with
      | none =>
        simp only [call, ClockModel.addTiming, ClockCall.sample?, hmeasure]
        exact ih
      | some sample =>
        simp only [call, ClockModel.addTiming, ClockCall.sample?, hmeasure, ih.1, and_self]

/-- The first of the samples of lowest round trip. -/
theorem argmin_split {samples : List Sample} {s : Sample}
    (h : s ∈ samples.argmin Sample.rtt) :
    ∃ older newer, samples = older ++ s :: newer ∧ (∀ o ∈ older, s.rtt < o.rtt) ∧
      ∀ o ∈ newer, s.rtt ≤ o.rtt := by
  obtain ⟨hmem, hle, hfirst⟩ := List.mem_argmin_iff.mp h
  obtain ⟨older, newer, rfl, hnotin⟩ := List.eq_append_cons_of_mem hmem
  refine ⟨older, newer, rfl, ?_, ?_⟩
  · intro o ho
    by_contra hlow
    have hin : o ∈ older ++ s :: newer := List.mem_append_left _ ho
    have hpos := hfirst o hin (Nat.le_of_not_lt hlow)
    have hlt := List.idxOf_lt_length_of_mem ho
    rw [List.idxOf_append_of_notMem hnotin, List.idxOf_append_of_mem ho] at hpos
    omega
  · intro o ho
    exact hle o (List.mem_append_right _ (List.mem_cons_of_mem _ ho))

theorem recent_within {offset : Int} {calls : List ClockCall}
    (h : ∀ c ∈ calls, c.FromClient offset) : ∀ s ∈ recent calls, s.Within offset := by
  intro s hs
  obtain ⟨c, hc, hsample⟩ := List.mem_filterMap.mp (List.mem_of_mem_drop hs)
  cases c with
  | setAnchor remoteTimeNs rtpAtDac => cases hsample
  | addTiming t1 t2 t3 t4 =>
    obtain ⟨received, transmitted, hout, hturn, hback, h2, h3⟩ := h _ hc
    exact @measure_within offset ⟨t1, received, transmitted⟩ t1 t2 t3 t4 hout hturn hback h2 h3 s
      hsample

end ClockModel

open ClockModel in
/-- Over any exchanges, ill-formed ones changing nothing, the offset is that of the first of the
last eight of lowest round trip, and half of that from the client's at most. -/
theorem offset_of_lowest_rtt (sampleRate : U32) (calls : List ClockCall) :
    (∀ (m : ClockModel) t1 t2 t3 t4, IllFormed t1 t2 t3 t4 → m.addTiming t1 t2 t3 t4 = m) ∧
      ((after sampleRate calls).offset = none ↔ recent calls = []) ∧
      ∀ inForce, (after sampleRate calls).offset = some inForce →
        ∃ older s newer, recent calls = older ++ s :: newer ∧ inForce = s.offset ∧
          (∀ o ∈ older, s.rtt < o.rtt) ∧ (∀ o ∈ newer, s.rtt ≤ o.rtt) ∧
          ∀ offset, (∀ c ∈ calls, c.FromClient offset) →
            |inForce - offset| ≤ ((s.rtt + 1) / 2 : Nat) := by
  obtain ⟨-, hoffset⟩ := after_spec sampleRate calls
  refine ⟨?_, ?_, ?_⟩
  · intro m t1 t2 t3 t4 hill
    rw [ClockModel.addTiming, measure_eq_none_iff.mpr hill]
  · rw [hoffset, Option.map_eq_none_iff, List.argmin_eq_none]
  · intro inForce hinForce
    rw [hoffset, Option.map_eq_some_iff] at hinForce
    obtain ⟨s, hs, rfl⟩ := hinForce
    obtain ⟨older, newer, hsplit, holder, hnewer⟩ := argmin_split hs
    refine ⟨older, s, newer, hsplit, rfl, holder, hnewer, ?_⟩
    intro offset hclient
    exact recent_within hclient s (List.argmin_mem hs)

/-- Of two samples with the same round trip the older one counts. -/
example : (ClockModel.after 44100 [.addTiming 0 5 5 10, .addTiming 20 27 27 30]).offset = some 0 :=
  by decide

/-! ## The instants of frames -/

def nanosPerSecond : Nat := 1000000000

/-- A signed frame distance in nanoseconds, rounded towards zero. -/
def frameNs (rate : Nat) (k : Int) : Int := (k * nanosPerSecond).tdiv rate

/-- The local instant of the frame `k` frames from the anchor, which is at `remoteNs`. -/
def frameInstant (rate : Nat) (offset : Int) (remoteNs : Nat) (k : Int) : Int :=
  remoteNs - offset + frameNs rate k

/-- What a 32-bit signed distance can be. -/
def InRange (k : Int) : Prop := -2 ^ 31 ≤ k ∧ k < 2 ^ 31

/-- A local instant, unless it lies before instant zero. -/
def instant? (ns : Int) : Option Nat := if 0 ≤ ns then some ns.toNat else none

/-- No more than a nanosecond apart; before instant zero there is none. -/
def Near : Option Nat → Option Nat → Prop
  | some t, some t' => t ≤ t' + 1 ∧ t' ≤ t + 1
  | none, some t | some t, none => t = 0
  | none, none => True

section Frames

variable {rate : Nat}

theorem frameNs_natCast (n : Nat) : frameNs rate n = (n * nanosPerSecond / rate : Nat) := by
  rw [frameNs, ← Int.natCast_mul, Int.natCast_tdiv_eq_ediv]
  exact (Int.natCast_ediv _ _).symm

theorem frameNs_neg (k : Int) : frameNs rate (-k) = -frameNs rate k := by
  rw [frameNs, Int.neg_mul, Int.neg_tdiv, frameNs]

theorem frameNs_lt_succ (hpos : 0 < rate) (hrate : rate ≤ nanosPerSecond) (n : Nat) :
    frameNs rate n < frameNs rate (n + 1 : Nat) := by
  rw [frameNs_natCast, frameNs_natCast, Int.ofNat_lt, Nat.add_mul, Nat.one_mul]
  have hstep : n * nanosPerSecond / rate + 1 = (n * nanosPerSecond + rate) / rate :=
    (Nat.add_div_right _ hpos).symm
  have hle := Nat.div_le_div_right (c := rate) (Nat.add_le_add_left hrate (n * nanosPerSecond))
  omega

/-- A frame takes a nanosecond at least, so no two of them have one instant. -/
theorem frameNs_strictMono (hpos : 0 < rate) (hrate : rate ≤ nanosPerSecond) :
    StrictMono (frameNs rate) := by
  apply strictMono_int_of_lt_succ
  intro k
  rcases lt_or_ge k 0 with hneg | hnonneg
  · obtain ⟨n, rfl⟩ : ∃ n : Nat, k = -(n + 1 : Nat) := ⟨k.natAbs - 1, by omega⟩
    have hlt := frameNs_lt_succ hpos hrate n
    have hnext : -((n + 1 : Nat) : Int) + 1 = -(n : Nat) := by omega
    rw [hnext, frameNs_neg, frameNs_neg]
    omega
  · obtain ⟨n, rfl⟩ := Int.eq_ofNat_of_zero_le hnonneg
    exact frameNs_lt_succ hpos hrate n

/-- The remainder of a division towards zero has the sign of the dividend. -/
theorem tdiv_bounds {r x : Int} (hr : 0 < r) :
    (0 ≤ x → r * x.tdiv r ≤ x ∧ x < r * x.tdiv r + r) ∧
      (x ≤ 0 → x ≤ r * x.tdiv r ∧ r * x.tdiv r < x + r) := by
  have hnonneg : ∀ y : Int, 0 ≤ y → r * y.tdiv r ≤ y ∧ y < r * y.tdiv r + r := by
    intro y hy
    have hsum := Int.mul_tdiv_add_tmod y r
    have hmod := Int.tmod_nonneg r hy
    have hlt := Int.tmod_lt_of_pos y hr
    omega
  refine ⟨hnonneg x, ?_⟩
  intro hx
  have hneg := hnonneg (-x) (by omega)
  rw [Int.neg_tdiv, Int.mul_neg] at hneg
  omega

/-- Rounding once or twice makes no difference of more than one. -/
theorem frameNs_split (hpos : 0 < rate) (n : Nat) (k : Int) :
    |frameNs rate n + frameNs rate (k - n) - frameNs rate k| ≤ 1 := by
  have hr : (0 : Int) < rate := by exact_mod_cast hpos
  have hshift := (tdiv_bounds (x := (n : Int) * nanosPerSecond) hr).1 (by positivity)
  have hrest := tdiv_bounds (x := (k - n) * nanosPerSecond) hr
  have hwhole := tdiv_bounds (x := k * nanosPerSecond) hr
  have hsum : (n : Int) * nanosPerSecond + (k - n) * nanosPerSecond = k * nanosPerSecond := by ring
  have hn : (0 : Int) ≤ n * nanosPerSecond := by positivity
  have hfold : ∀ j : Int, (j * nanosPerSecond).tdiv rate = frameNs rate j := fun _ => rfl
  rw [hfold] at hshift hrest hwhole
  have hbounds : -2 * (rate : Int) <
        rate * (frameNs rate n + frameNs rate (k - n) - frameNs rate k) ∧
      rate * (frameNs rate n + frameNs rate (k - n) - frameNs rate k) < 2 * (rate : Int) := by
    rw [Int.mul_sub, Int.mul_add]
    -- rounding down, then either way; the whole has its own sign
    rcases Int.le_total 0 ((k - n) * nanosPerSecond) with hback | hback
    · have h1 := hrest.1 hback
      have h2 := hwhole.1 (by omega)
      omega
    · have h1 := hrest.2 hback
      rcases Int.le_total 0 (k * nanosPerSecond) with hall | hall
      · have h2 := hwhole.1 hall
        omega
      · have h2 := hwhole.2 hall
        omega
  rw [abs_le]
  constructor
  · by_contra hlow
    nlinarith [hbounds.1]
  · by_contra hhigh
    nlinarith [hbounds.2]

theorem frame_distance (rtp : U32) {k : Int} (hk : InRange k) :
    (rtp + BitVec.ofInt 32 k - rtp).toInt = k := by
  obtain ⟨hlo, hhi⟩ := hk
  rw [add_sub_cancel_left, BitVec.toInt_ofInt]
  exact SerialNumber.bmod_of_half (by omega) (by omega)

end Frames

section Anchored

variable {m : ClockModel} {offset : Int} {remoteNs : Nat} {rtp : U32}

theorem playTime_eq (hoffset : m.offset = some offset) (hanchor : m.anchor = some (remoteNs, rtp))
    (hpos : 0 < m.sampleRate.toNat) {k : Int} (hk : InRange k) :
    m.playTime (rtp + BitVec.ofInt 32 k) =
      .ok (if 0 ≤ frameInstant m.sampleRate.toNat offset remoteNs k then
        some ((frameInstant m.sampleRate.toNat offset remoteNs k).toNat % 2 ^ 64) else none) := by
  have hdivisor : (m.sampleRate.toNat : Int) ≠ 0 := by omega
  simp only [ClockModel.playTime, hoffset, hanchor, frame_distance rtp hk, divide,
    if_neg hdivisor]
  rfl

theorem playTime_of_lt (hoffset : m.offset = some offset)
    (hanchor : m.anchor = some (remoteNs, rtp)) (hpos : 0 < m.sampleRate.toNat) {k : Int}
    (hk : InRange k) (hlt : frameInstant m.sampleRate.toNat offset remoteNs k < 2 ^ 64) :
    m.playTime (rtp + BitVec.ofInt 32 k) =
      .ok (instant? (frameInstant m.sampleRate.toNat offset remoteNs k)) := by
  rw [playTime_eq hoffset hanchor hpos hk, instant?, Nat.mod_eq_of_lt (by omega)]

theorem near_instants {i i' : Int} (h : |i' - i| ≤ 1) : Near (instant? i) (instant? i') := by
  rw [abs_le] at h
  unfold instant?
  split <;> split <;> simp only [Near] <;> omega

end Anchored

/-- The instants of a stream's frames, in order across the wrap, and the same to a nanosecond
from any later sync packet of its timeline. -/
theorem play_time_exact (m : ClockModel) (offset : Int) (remoteNs : Nat) (rtp : U32)
    (hoffset : m.offset = some offset) (hanchor : m.anchor = some (remoteNs, rtp))
    (hpos : 0 < m.sampleRate.toNat) (hrate : m.sampleRate.toNat ≤ nanosPerSecond) :
    (∀ k, InRange k → frameInstant m.sampleRate.toNat offset remoteNs k < 2 ^ 64 →
      m.playTime (rtp + BitVec.ofInt 32 k) =
        .ok (instant? (frameInstant m.sampleRate.toNat offset remoteNs k))) ∧
      (∀ k k', InRange k → InRange k' → k < k' →
        frameInstant m.sampleRate.toNat offset remoteNs k' < 2 ^ 64 →
          ∀ t, m.playTime (rtp + BitVec.ofInt 32 k) = .ok (some t) →
            ∃ t', m.playTime (rtp + BitVec.ofInt 32 k') = .ok (some t') ∧ t < t') ∧
      ∀ (shift : Nat) k, InRange k → InRange (k - shift) →
        frameInstant m.sampleRate.toNat offset remoteNs k < 2 ^ 64 →
        frameInstant m.sampleRate.toNat offset
          (remoteNs + shift * nanosPerSecond / m.sampleRate.toNat) (k - shift) < 2 ^ 64 →
          ∃ t t', m.playTime (rtp + BitVec.ofInt 32 k) = .ok t ∧
            (m.setAnchor (remoteNs + shift * nanosPerSecond / m.sampleRate.toNat)
              (rtp + BitVec.ofNat 32 shift)).playTime (rtp + BitVec.ofInt 32 k) = .ok t' ∧
            Near t t' := by
  refine ⟨fun k hk => playTime_of_lt hoffset hanchor hpos hk, ?_, ?_⟩
  · intro k k' hk hk' hlt hrange' t ht
    have hbefore : frameInstant m.sampleRate.toNat offset remoteNs k <
        frameInstant m.sampleRate.toNat offset remoteNs k' :=
      Int.add_lt_add_left (frameNs_strictMono hpos hrate hlt) _
    rw [playTime_of_lt hoffset hanchor hpos hk (by omega), instant?] at ht
    split at ht
    · obtain rfl := Option.some.inj (Except.ok.inj ht)
      refine ⟨(frameInstant m.sampleRate.toNat offset remoteNs k').toNat, ?_, by omega⟩
      rw [playTime_of_lt hoffset hanchor hpos hk' hrange', instant?, if_pos (by omega)]
    · cases Except.ok.inj ht
  · intro shift k hk hback hlt hlt'
    have hsame : rtp + BitVec.ofInt 32 k =
        rtp + BitVec.ofNat 32 shift + BitVec.ofInt 32 (k - shift) := by
      rw [← BitVec.ofInt_natCast, add_assoc, ← BitVec.ofInt_add]
      congr 2
      omega
    have hnew : (m.setAnchor (remoteNs + shift * nanosPerSecond / m.sampleRate.toNat)
        (rtp + BitVec.ofNat 32 shift)).playTime (rtp + BitVec.ofInt 32 k) =
          .ok (instant? (frameInstant m.sampleRate.toNat offset
            (remoteNs + shift * nanosPerSecond / m.sampleRate.toNat) (k - shift))) := by
      rw [hsame]
      exact @playTime_of_lt (m.setAnchor _ _) offset _ _ hoffset rfl hpos _ hback hlt'
    refine ⟨_, _, playTime_of_lt hoffset hanchor hpos hk hlt, hnew, near_instants ?_⟩
    have hsplit := frameNs_split hpos shift k
    rw [frameNs_natCast] at hsplit
    unfold frameInstant
    push_cast at hsplit ⊢
    rw [abs_le] at hsplit ⊢
    constructor <;> linarith

/-- A minute before the wrap of the timestamps, and a sync packet a minute later. -/
theorem play_time_exact_anchored :
    (∀ k, InRange k → frameInstant 44100 5 7000000000 k < 2 ^ 64 →
      ClockModel.playTime ⟨44100, [⟨10, 5⟩], some 5, some (7000000000, 4292321296)⟩
          (4292321296 + BitVec.ofInt 32 k) =
        .ok (instant? (frameInstant 44100 5 7000000000 k))) ∧
      (∀ k k', InRange k → InRange k' → k < k' → frameInstant 44100 5 7000000000 k' < 2 ^ 64 →
        ∀ t, ClockModel.playTime ⟨44100, [⟨10, 5⟩], some 5, some (7000000000, 4292321296)⟩
            (4292321296 + BitVec.ofInt 32 k) = .ok (some t) →
          ∃ t', ClockModel.playTime ⟨44100, [⟨10, 5⟩], some 5, some (7000000000, 4292321296)⟩
              (4292321296 + BitVec.ofInt 32 k') = .ok (some t') ∧ t < t') ∧
      ∃ t t', ClockModel.playTime ⟨44100, [⟨10, 5⟩], some 5, some (7000000000, 4292321296)⟩
            (4292321296 + BitVec.ofInt 32 100) = .ok t ∧
          ClockModel.playTime ⟨44100, [⟨10, 5⟩], some 5, some (7000000000 +
              2646000 * nanosPerSecond / 44100, 4292321296 + BitVec.ofNat 32 2646000)⟩
            (4292321296 + BitVec.ofInt 32 100) = .ok t' ∧ Near t t' := by
  obtain ⟨hexact, horder, hsync⟩ := play_time_exact
    ⟨44100, [⟨10, 5⟩], some 5, some (7000000000, 4292321296)⟩ 5 7000000000 4292321296 rfl rfl
    (by decide) (by decide)
  refine ⟨hexact, horder, hsync 2646000 100 ?_ ?_ ?_ ?_⟩
  · unfold InRange
    decide
  · unfold InRange
    decide
  · decide
  · decide

end OpenAirplay
