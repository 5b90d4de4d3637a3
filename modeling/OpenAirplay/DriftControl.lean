import OpenAirplay.AlsaRuns
import OpenAirplay.Shared.DeadBand

/-!
# The queue of the device

The sink in a loop with its device: what it writes is queued, the queue is played at the pace of
another clock, and its depth decides the next correction. The corrections hold the depth
against a drift of one frame in fifty writes, and against no more.
-/

namespace OpenAirplay.Alsa

open Player

set_option autoImplicit false

variable {F : Type} {fl : Floats F}

theorem driftAction_eq (depth target threshold : Int) :
    driftAction depth target threshold = DeadBand.action target threshold depth := rfl

/-! ## Writes of one stream -/

def Use.write? : Use → Option (Device × List Player.Sample)
  | .write device pcm => some (device, pcm)
  | _ => none

/-- Uses between two flushes. -/
def Use.Playing : Use → Prop
  | .write _ _ | .volume _ => True
  | .stream _ | .flush => False

/-- The `i`-th write of a stretch of playing has `i` writes before it. -/
theorem fed_of_write {uses : List Use} (hplaying : ∀ use ∈ uses, use.Playing) {format : Format}
    {n : Nat} {gain : F} {h : Host F} {feds : List (Option Fed)}
    (hrun : (Host.at format n gain).run fl uses = some (h, feds)) {i : Nat} {device : Device}
    {pcm : List Player.Sample} (hi : (uses.filterMap Use.write?)[i]? = some (device, pcm)) :
    ∃ fed gain, (feds.filterMap id)[i]? = some fed ∧
      FedWith fl format gain (n + i) device pcm fed := by
  induction uses generalizing n gain feds i with
  | nil => cases hi
  | cons use uses ih =>
    obtain ⟨mid, fed, rest, hstep, hrest, rfl⟩ := run_cons_some.mp hrun
    have hplaying' : ∀ use ∈ uses, use.Playing :=
      fun other hother => hplaying other (List.mem_cons_of_mem _ hother)
    have hmid := step_at hstep
    cases use with
    | write device' pcm' =>
      obtain ⟨-, f, rfl, hfed⟩ := step_write hstep
      rw [hmid] at hrest
      have hwrite : Use.write? (.write device' pcm') = some (device', pcm') := rfl
      have hid : id (some f) = some f := rfl
      rw [List.filterMap_cons_some hwrite] at hi
      rw [List.filterMap_cons_some hid]
      cases i with
      | zero =>
        cases hi
        exact ⟨f, gain, rfl, hfed⟩
      | succ i =>
        obtain ⟨fed, gain', hfed', hwith⟩ := ih hplaying' hrest hi
        refine ⟨fed, gain', hfed', ?_⟩
        have hcount : n + 1 + i = n + (i + 1) := by omega
        exact hcount ▸ hwith
    | volume db =>
      rw [hmid] at hrest
      rw [List.filterMap_cons_none rfl] at hi
      simp only [Host.step, Option.some.injEq, Prod.mk.injEq] at hstep
      obtain ⟨-, rfl⟩ := hstep
      rw [List.filterMap_cons_none rfl]
      exact ih hplaying' hrest hi
    | stream format' => exact (hplaying _ List.mem_cons_self).elim
    | flush => exact (hplaying _ List.mem_cons_self).elim

/-! ## The loop -/

/-- The depth read before the `i`-th write is what is queued then: all that was taken before,
less what was played. Each write brings whole frames, and the device takes them. -/
structure Looped (format : Format) (writes : List (Device × List Player.Sample)) (feds : List Fed)
    (frames played : Nat → Nat) (depth : Nat → Int) : Prop where
  reads : ∀ (i : Nat) (device : Device) (pcm : List Player.Sample),
    writes[i]? = some (device, pcm) → device.delay = some (depth i)
  steady : ∀ (i : Nat) (device : Device) (pcm : List Player.Sample),
    writes[i]? = some (device, pcm) → device.Steady
  brings : ∀ (i : Nat) (device : Device) (pcm : List Player.Sample),
    writes[i]? = some (device, pcm) →
      pcm.length = frames i * format.channels.toNat ∧ 0 < frames i
  fills : ∀ (i : Nat) (fed : Fed), feds[i]? = some fed →
    depth (i + 1) = depth i + (fed.took.length / format.channels.toNat : Nat) - played i

/-- Frames that came in over fifty writes and were not played in that time. -/
def skew (frames played : Nat → Nat) (m : Nat) : Int :=
  ∑ i ∈ Finset.range 50, ((frames (50 * m + i) : Int) - played (50 * m + i))

def target (format : Format) : Int := (format.rate.toNat / 5 : Nat)

def threshold (format : Format) : Int := (format.rate.toNat / 100 : Nat)

theorem frames_taken {format : Format} (hchannels : 0 < format.channels.toNat) {i : Nat}
    {depth : Int} {gain : F} {frames : Nat} {pcm : List Player.Sample}
    (hpcm : pcm.length = frames * format.channels.toNat) (hframes : 0 < frames) :
    (((corrected format i (some depth) (applyGain fl pcm gain)).length /
        format.channels.toNat : Nat) : Int) =
      frames + if 0 < i ∧ 50 ∣ i then
        DeadBand.action (target format) (threshold format) depth else 0 := by
  have hlength := length_applyGain fl pcm gain
  have hwide : format.channels.toNat ≤ frames * format.channels.toNat :=
    Nat.le_mul_of_pos_left _ hframes
  have hpos : (0 : Int) < format.channels.toNat := by exact_mod_cast hchannels
  unfold corrected
  split
  · have hnudge := length_nudge (AlsaSink.openDevice format) depth (applyGain fl pcm gain)
    have hsink : (AlsaSink.openDevice format).channels = format.channels.toNat := rfl
    rw [hlength, hpcm, hsink, if_pos hwide, driftAction_eq] at hnudge
    have hmul : ((((AlsaSink.openDevice format).nudge depth (applyGain fl pcm gain)).length : Nat) :
        Int) = (frames + DeadBand.action (target format) (threshold format) depth) *
          format.channels.toNat := by
      rw [hnudge]
      push_cast
      exact (add_mul _ _ _).symm
    rw [Int.natCast_ediv, hmul, Int.mul_ediv_cancel _ hpos.ne']
  · rw [hlength, hpcm, Nat.mul_div_cancel _ hchannels, add_zero]

section Loop

variable {format : Format} {uses : List Use} {gain : F} {h : Host F} {feds : List (Option Fed)}
  {frames played : Nat → Nat} {depth : Nat → Int}

theorem depth_write (hopened : format.opened = true) (hchannels : 0 < format.channels.toNat)
    (hplaying : ∀ use ∈ uses, use.Playing)
    (hrun : Host.run fl ⟨.openDevice format, gain⟩ uses = some (h, feds))
    (hloop : Looped format (uses.filterMap Use.write?) (feds.filterMap id) frames played depth)
    {i : Nat} (hi : i < (uses.filterMap Use.write?).length) :
    depth (i + 1) = depth i + ((frames i : Int) - played i) + if 0 < i ∧ 50 ∣ i then
      DeadBand.action (target format) (threshold format) (depth i) else 0 := by
  rw [at_zero] at hrun
  obtain ⟨⟨device, pcm⟩, hwrite⟩ :
      ∃ w, (uses.filterMap Use.write?)[i]? = some w := ⟨_, List.getElem?_eq_getElem hi⟩
  obtain ⟨fed, gain', hfed, hwith⟩ := fed_of_write hplaying hrun hwrite
  rw [Nat.zero_add] at hwith
  obtain ⟨hlength, hframes⟩ := hloop.brings i device pcm hwrite
  rw [hloop.fills i fed hfed, hwith.all (hloop.steady i device pcm hwrite), hwith.chunk hopened,
    hloop.reads i device pcm hwrite, frames_taken hchannels hlength hframes]
  omega

/-- From one check to the next: its correction, and what fifty writes bring and play. -/
theorem depth_check (hopened : format.opened = true) (hchannels : 0 < format.channels.toNat)
    (hplaying : ∀ use ∈ uses, use.Playing)
    (hrun : Host.run fl ⟨.openDevice format, gain⟩ uses = some (h, feds))
    (hloop : Looped format (uses.filterMap Use.write?) (feds.filterMap id) frames played depth)
    {m : Nat} (hm : 1 ≤ m) (hlast : 50 * (m + 1) ≤ (uses.filterMap Use.write?).length) :
    depth (50 * (m + 1)) = depth (50 * m) +
      DeadBand.action (target format) (threshold format) (depth (50 * m)) +
        skew frames played m := by
  have hpart : ∀ j < 50, depth (50 * m + (j + 1)) = depth (50 * m) +
      DeadBand.action (target format) (threshold format) (depth (50 * m)) +
        ∑ i ∈ Finset.range (j + 1), ((frames (50 * m + i) : Int) - played (50 * m + i)) := by
    intro j hj
    induction j with
    | zero =>
      have hwrite := depth_write hopened hchannels hplaying hrun hloop (i := 50 * m) (by omega)
      rw [if_pos ⟨by omega, Dvd.intro m rfl⟩] at hwrite
      rw [hwrite, Finset.sum_range_one, Nat.add_zero]
      ring
    | succ j ih =>
      have hwrite := depth_write hopened hchannels hplaying hrun hloop (i := 50 * m + (j + 1))
        (by omega)
      have hunchecked : ¬50 ∣ 50 * m + (j + 1) := by omega
      rw [if_neg (fun hcheck => hunchecked hcheck.2), ih (by omega)] at hwrite
      rw [Finset.sum_range_succ, ← add_assoc (50 * m) (j + 1) 1, hwrite]
      ring
  exact hpart 49 (by decide)

/-- As long as no fifty writes gain or lose more than a frame against the clock of the device, its
queue stays where the first check found it or within a frame of the band around the target. -/
theorem depth_held (fl : Floats F) (format : Format) (hopened : format.opened = true)
    (hchannels : 0 < format.channels.toNat) (gain : F) (uses : List Use)
    (hplaying : ∀ use ∈ uses, use.Playing) (h : Host F) (feds : List (Option Fed))
    (hrun : Host.run fl ⟨.openDevice format, gain⟩ uses = some (h, feds))
    (frames played : Nat → Nat) (depth : Nat → Int)
    (hloop : Looped format (uses.filterMap Use.write?) (feds.filterMap id) frames played depth)
    (hskew : ∀ m, 1 ≤ m → 50 * (m + 1) ≤ (uses.filterMap Use.write?).length →
      |skew frames played m| ≤ 1) :
    ∀ m, 1 ≤ m → 50 * m ≤ (uses.filterMap Use.write?).length →
      DeadBand.excess (target format) (threshold format) (depth (50 * m)) ≤
        max (DeadBand.excess (target format) (threshold format) (depth 50)) 1 := by
  intro m hm hlast
  have hthreshold : 0 ≤ threshold format := Int.natCast_nonneg _
  have hchecks : ∀ k, 1 ≤ k → k < m → depth (50 * (k + 1)) = depth (50 * k) +
      DeadBand.action (target format) (threshold format) (depth (50 * k)) +
        skew frames played k := fun k hk hkm =>
    depth_check hopened hchannels hplaying hrun hloop hk (by omega)
  exact DeadBand.excess_run (fun m => depth (50 * m)) (skew frames played) hthreshold hchecks
    (fun k hk hkm => hskew k hk (by omega)) hm (le_refl m)

theorem filterMap_writes (writes : Nat → Device × List Player.Sample) (n : Nat) :
    ((List.range n).map fun i => Use.write (writes i).1 (writes i).2).filterMap Use.write? =
      (List.range n).map writes := by
  rw [List.filterMap_map, ← List.filterMap_eq_map]
  rfl

theorem filterMap_feds (fed : Nat → Fed) (n : Nat) :
    ((List.range n).map fun i => some (fed i)).filterMap id = (List.range n).map fed := by
  rw [List.filterMap_map, ← List.filterMap_eq_map]
  rfl

/-- Played without end against a clock that is off by the same number of frames in every fifty
writes, the queue stays within bounds exactly when that is one frame at most. -/
theorem drift_held_iff (fl : Floats F) (format : Format) (hopened : format.opened = true)
    (hchannels : 0 < format.channels.toNat) (gain : F)
    (writes : Nat → Device × List Player.Sample)
    (fed : Nat → Fed)
    (hrun : ∀ n, ∃ h, Host.run fl ⟨.openDevice format, gain⟩
      ((List.range n).map fun i => .write (writes i).1 (writes i).2) =
        some (h, (List.range n).map fun i => some (fed i)))
    (frames played : Nat → Nat) (depth : Nat → Int)
    (hloop : ∀ n, Looped format ((List.range n).map writes) ((List.range n).map fed) frames played
      depth)
    (drift : Int) (hskew : ∀ m, 1 ≤ m → skew frames played m = drift) :
    (∃ bound, ∀ m, 1 ≤ m →
      DeadBand.excess (target format) (threshold format) (depth (50 * m)) ≤ bound) ↔
        |drift| ≤ 1 := by
  have hthreshold : 0 ≤ threshold format := Int.natCast_nonneg _
  have hstep : ∀ k, depth (50 * (k + 1 + 1)) = depth (50 * (k + 1)) +
      DeadBand.action (target format) (threshold format) (depth (50 * (k + 1))) + drift := by
    intro k
    obtain ⟨h, hprefix⟩ := hrun (50 * (k + 1 + 1))
    have hwrites := filterMap_writes writes (50 * (k + 1 + 1))
    have hfeds := filterMap_feds fed (50 * (k + 1 + 1))
    have hplaying : ∀ use ∈ (List.range (50 * (k + 1 + 1))).map fun i =>
        Use.write (writes i).1 (writes i).2, use.Playing := by
      intro use huse
      obtain ⟨i, -, rfl⟩ := List.mem_map.mp huse
      trivial
    have hcheck := depth_check hopened hchannels hplaying hprefix
      (hwrites ▸ hfeds ▸ hloop (50 * (k + 1 + 1))) (m := k + 1) (by omega) (by simp [hwrites])
    rw [hcheck, hskew (k + 1) (by omega)]
  rw [← DeadBand.held_iff (fun k => depth (50 * (k + 1))) hthreshold hstep]
  constructor
  · rintro ⟨bound, hbound⟩
    exact ⟨bound, fun k => hbound (k + 1) (by omega)⟩
  · rintro ⟨bound, hbound⟩
    refine ⟨bound, fun m hm => ?_⟩
    obtain ⟨k, rfl⟩ := Nat.exists_eq_add_of_le' hm
    exact hbound k

end Loop

/-! ## A device that is off by a frame -/

def mono : Format := ⟨true, 44100, 1⟩

/-- At the upper end of the band, and a frame beyond it at each check. -/
def slowDepth (i : Nat) : Int := if 0 < i ∧ 50 ∣ i then 9262 else 9261

/-- Each check drops a frame. -/
def slowChunk (i : Nat) : List Player.Sample := if 0 < i ∧ 50 ∣ i then [1] else [1, 2]

/-- Two frames in each write, and one call for what the corrections leave of them. -/
def slow (i : Nat) : Device × List Player.Sample :=
  (⟨true, some (slowDepth i), [.written (slowChunk i).length]⟩, [1, 2])

def slowFed (i : Nat) : Fed := ⟨slowChunk i, slowChunk i⟩

/-- The device plays two frames in the time of a write, but misses one in every fifty writes. -/
def slowPlayed (i : Nat) : Nat := if 50 ∣ i + 1 then 1 else 2

theorem corrected_slow (i : Nat) :
    corrected mono i (slow i).1.delay (applyGain coarse (slow i).2 coarse.one) = slowChunk i := by
  have hgain : applyGain coarse (slow i).2 coarse.one = [1, 2] := rfl
  have hnudge : (AlsaSink.openDevice mono).nudge 9262 ([1, 2] : List Player.Sample) = [1] := rfl
  rw [hgain]
  unfold corrected slow slowDepth slowChunk
  split
  · exact hnudge
  · rfl

theorem step_slow (i : Nat) :
    (Host.at mono i coarse.one).step coarse (.write (slow i).1 (slow i).2) =
      some (.at mono (i + 1) coarse.one, some (slowFed i)) := by
  refine step_whole rfl (corrected_slow i) ?_
  unfold slow slowChunk
  split <;> rfl

theorem run_slow (n : Nat) : Host.run coarse ⟨.openDevice mono, coarse.one⟩
    ((List.range n).map fun i => .write (slow i).1 (slow i).2) =
      some (.at mono n coarse.one, (List.range n).map fun i => some (slowFed i)) := by
  rw [at_zero]
  exact run_writes n fun i _ => step_slow i

theorem eq_of_range_map {α : Type} {f : Nat → α} {n i : Nat} {x : α}
    (h : ((List.range n).map f)[i]? = some x) : f i = x := by
  obtain ⟨hi, hx⟩ := List.getElem?_eq_some_iff.mp h
  rwa [List.getElem_map, List.getElem_range] at hx

theorem looped_slow (n : Nat) : Looped mono ((List.range n).map slow) ((List.range n).map slowFed)
    (fun _ => 2) slowPlayed slowDepth where
  reads i device pcm h := by
    cases eq_of_range_map h
    rfl
  steady i device pcm h := by
    cases eq_of_range_map h
    refine ⟨rfl, fun call hcall => ?_⟩
    rw [List.mem_singleton.mp hcall]
    unfold slowChunk
    split <;> decide
  brings i device pcm h := by
    cases eq_of_range_map h
    decide
  fills i fed h := by
    cases eq_of_range_map h
    have hchannels : mono.channels.toNat = 1 := rfl
    rw [hchannels, Nat.div_one]
    by_cases hcheck : 0 < i ∧ 50 ∣ i
    · have hnext : ¬50 ∣ i + 1 := by omega
      simp [slowDepth, slowFed, slowChunk, slowPlayed, hcheck, hnext]
    · by_cases hlast : 50 ∣ i + 1 <;>
        simp [slowDepth, slowFed, slowChunk, slowPlayed, hcheck, hlast]

/-- The frame that is missed is the last of the fifty. -/
theorem skew_slow (m : Nat) : skew (fun _ => 2) slowPlayed m = 1 := by
  unfold skew
  rw [Finset.sum_eq_single 49]
  · have hlast : 50 ∣ 50 * m + 49 + 1 := by omega
    simp [slowPlayed, hlast]
  · intro i hi hne
    have hlt := Finset.mem_range.mp hi
    have hearlier : ¬50 ∣ 50 * m + i + 1 := by omega
    simp [slowPlayed, hearlier]
  · intro hmissing
    exact absurd (Finset.mem_range.mpr (by decide)) hmissing

theorem depth_held_slow : DeadBand.excess (target mono) (threshold mono) (slowDepth 200) ≤
    max (DeadBand.excess (target mono) (threshold mono) (slowDepth 50)) 1 := by
  have hplaying : ∀ use ∈ (List.range 200).map fun i => Use.write (slow i).1 (slow i).2,
      use.Playing := by
    intro use huse
    obtain ⟨i, -, rfl⟩ := List.mem_map.mp huse
    trivial
  have hwrites := filterMap_writes slow 200
  have hloop := looped_slow 200
  rw [← hwrites, ← filterMap_feds slowFed 200] at hloop
  exact depth_held coarse mono rfl (by decide) coarse.one _ hplaying _ _ (run_slow 200) _ _ _ hloop
    (fun m _ _ => by rw [skew_slow, abs_one]) 4 (by decide)
    (by rw [hwrites, List.length_map, List.length_range])

theorem drift_held_slow : ∃ bound, ∀ m, 1 ≤ m →
    DeadBand.excess (target mono) (threshold mono) (slowDepth (50 * m)) ≤ bound :=
  (drift_held_iff coarse mono rfl (by decide) coarse.one slow slowFed
    (fun n => ⟨_, run_slow n⟩) _ _ _ looped_slow 1 fun m _ => skew_slow m).mpr (by decide)

end OpenAirplay.Alsa
