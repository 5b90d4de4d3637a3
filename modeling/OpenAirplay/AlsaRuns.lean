import OpenAirplay.Alsa

/-!
# What the device is fed

Over any uses of the sink and whatever the device answers: which chunk each write makes, what
the device takes of it, how far the corrections can carry the stream away from the audio it
was given, and that a muted sink is silent.
-/

namespace OpenAirplay.Alsa

open Player Register

set_option autoImplicit false

/-! ## One chunk -/

/-- The device takes every chunk in the end: it is never stuck, and no error is final. -/
def Device.Steady (device : Device) : Prop :=
  device.handle = true ∧ ∀ call ∈ device.calls, call ≠ .written 0 ∧ call ≠ .failed false

section Writing

variable {σ : Type} {channels : Nat}

theorem writeLoop_cons {frames : List σ} (hframes : frames ≠ []) (call : Writei)
    (calls : List Writei) : AlsaOutput.writeLoop channels frames (call :: calls) =
      match call with
      | .written 0 => if calls.isEmpty then some [] else none
      | .written n =>
        if n * channels ≤ frames.length then
          (AlsaOutput.writeLoop channels (frames.drop (n * channels)) calls).map
            (frames.take (n * channels) ++ ·)
        else none
      | .failed true => AlsaOutput.writeLoop channels frames calls
      | .failed false => if calls.isEmpty then some [] else none := by
  rcases call with (_ | n) | (_ | _) <;> rw [AlsaOutput.writeLoop.eq_def] <;>
    simp only [List.isEmpty_iff, if_neg hframes]

/-- Whole frames from the front of the chunk; all of it if the device takes any. -/
theorem writeLoop_takes {frames took : List σ} {calls : List Writei}
    (h : AlsaOutput.writeLoop channels frames calls = some took) :
    took <+: frames ∧ channels ∣ took.length ∧
      ((∀ call ∈ calls, call ≠ .written 0 ∧ call ≠ .failed false) → took = frames) := by
  induction calls generalizing frames took with
  | nil =>
    rw [AlsaOutput.writeLoop.eq_def] at h
    simp only at h
    split at h
    · rename_i hempty
      cases h
      rw [List.isEmpty_iff.mp hempty]
      exact ⟨List.prefix_rfl, Nat.dvd_zero _, fun _ => rfl⟩
    · cases h
  | cons call calls ih =>
    have hframes : frames ≠ [] := by
      rintro rfl
      rw [AlsaOutput.writeLoop.eq_def] at h
      cases h
    have hnothing : (if calls.isEmpty then some [] else none) = some took → took = [] := by
      intro hsome
      split at hsome
      · exact (Option.some.inj hsome).symm
      · cases hsome
    rw [writeLoop_cons hframes] at h
    cases call with
    | written n =>
      cases n with
      | zero =>
        rw [hnothing h]
        refine ⟨List.nil_prefix, Nat.dvd_zero _, fun hsteady => ?_⟩
        exact absurd rfl (hsteady _ List.mem_cons_self).1
      | succ n =>
        simp only at h
        split at h
        · rename_i hfits
          obtain ⟨rest, hrest, rfl⟩ := Option.map_eq_some_iff.mp h
          obtain ⟨hwithin, hwhole, hall⟩ := ih hrest
          obtain ⟨more, hmore⟩ := hwithin
          refine ⟨⟨more, ?_⟩, ?_, fun hsteady => ?_⟩
          · rw [List.append_assoc, hmore, List.take_append_drop]
          · rw [List.length_append, List.length_take_of_le hfits]
            exact Nat.dvd_add (Nat.dvd_mul_left _ _) hwhole
          · rw [hall fun call hcall => hsteady call (List.mem_cons_of_mem _ hcall),
              List.take_append_drop]
        · cases h
    | failed recovered =>
      cases recovered with
      | true =>
        obtain ⟨hwithin, hwhole, hall⟩ := ih h
        exact ⟨hwithin, hwhole,
          fun hsteady => hall fun call hcall => hsteady call (List.mem_cons_of_mem _ hcall)⟩
      | false =>
        rw [hnothing h]
        refine ⟨List.nil_prefix, Nat.dvd_zero _, fun hsteady => ?_⟩
        exact absurd rfl (hsteady _ List.mem_cons_self).2

theorem write_takes {frames took : List σ} {device : Device}
    (h : AlsaOutput.write channels device frames = some took) :
    took <+: frames ∧ channels ∣ took.length ∧ (device.Steady → took = frames) := by
  unfold AlsaOutput.write at h
  split at h
  · obtain ⟨hwithin, hwhole, hall⟩ := writeLoop_takes h
    exact ⟨hwithin, hwhole, fun hsteady => hall hsteady.2⟩
  · rename_i hhandle
    split at h
    · cases h
      exact ⟨List.nil_prefix, Nat.dvd_zero _, fun hsteady => absurd hsteady.1 hhandle⟩
    · cases h

end Writing

/-! ## Corrections -/

section Corrections

variable {σ : Type}

/-- The sink after `n` writes since the device was opened or flushed. -/
def counted (format : Format) (n : Nat) : AlsaSink :=
  { AlsaSink.openDevice format with
    sinceDriftCheck := (n - 1) % 50
    started := decide (0 < n) }

/-- The chunk of the write that comes after `n` others: each fiftieth may be corrected. -/
def corrected (format : Format) (n : Nat) (delay : Option Int) (scratch : List σ) : List σ :=
  if 0 < n ∧ 50 ∣ n then
    match delay with
    | none => scratch
    | some depth => (AlsaSink.openDevice format).nudge depth scratch
  else scratch

theorem counted_zero (format : Format) : counted format 0 = .openDevice format := rfl

theorem flush_counted (format : Format) (n : Nat) :
    (counted format n).flush = .openDevice format := rfl

theorem adjust_counted (format : Format) (n : Nat) (delay : Option Int) (scratch : List σ) :
    (counted format n).adjust delay scratch =
      (counted format (n + 1), corrected format n delay scratch) := by
  cases n with
  | zero => rfl
  | succ n =>
    have hstarted : (counted format (n + 1)).started = true := by simp [counted]
    have hlater : (counted format (n + 2)).started = true := by simp [counted]
    rw [AlsaSink.adjust, if_pos hstarted, AlsaSink.driftCorrect.eq_def]
    have hsince : (counted format (n + 1)).sinceDriftCheck = n % 50 := rfl
    by_cases hcheck : 50 ∣ n + 1
    · have hfull : ¬n % 50 + 1 < 50 := by omega
      have hzero : (n + 1) % 50 = 0 := Nat.mod_eq_zero_of_dvd hcheck
      simp only [hsince, if_neg hfull, corrected, hcheck, Nat.succ_pos, and_self, if_true]
      congr 1
      simp only [counted, Nat.add_sub_cancel, hzero, Nat.succ_pos, decide_true]
    · have hroom : n % 50 + 1 < 50 := by omega
      have hnext : (n + 1) % 50 = n % 50 + 1 := by omega
      simp only [hsince, if_pos hroom, corrected, hcheck, and_false, if_false]
      congr 1
      simp only [counted, Nat.add_sub_cancel, hnext, Nat.succ_pos, decide_true]

theorem driftAction_cases (depth target threshold : Int) :
    driftAction depth target threshold = 1 ∨ driftAction depth target threshold = -1 ∨
      driftAction depth target threshold = 0 := by
  unfold driftAction
  split
  · exact .inl rfl
  · split
    · exact .inr (.inl rfl)
    · exact .inr (.inr rfl)

/-- A correction is one frame, and a chunk shorter than that gets none. -/
theorem length_nudge (s : AlsaSink) (depth : Int) (scratch : List σ) :
    ((s.nudge depth scratch).length : Int) = scratch.length +
      if s.channels ≤ scratch.length then
        driftAction depth s.targetDepth s.driftThreshold * s.channels
      else 0 := by
  unfold AlsaSink.nudge
  rcases driftAction_cases depth s.targetDepth s.driftThreshold with haction | haction | haction <;>
    rw [haction]
  · simp only
    split
    · rw [List.length_append, List.length_drop]
      omega
    · omega
  · simp only
    split
    · rw [List.length_take]
      omega
    · omega
  · simp

theorem mem_nudge {s : AlsaSink} {depth : Int} {scratch : List σ} {x : σ}
    (h : x ∈ s.nudge depth scratch) : x ∈ scratch := by
  unfold AlsaSink.nudge at h
  split at h
  · split at h
    · rcases List.mem_append.mp h with h | h
      · exact h
      · exact List.mem_of_mem_drop h
    · exact h
  · split at h
    · exact List.mem_of_mem_take h
    · exact h
  · exact h

theorem mem_corrected {format : Format} {n : Nat} {delay : Option Int} {scratch : List σ} {x : σ}
    (h : x ∈ corrected format n delay scratch) : x ∈ scratch := by
  unfold corrected at h
  split at h
  · cases delay with
    | none => exact h
    | some depth => exact mem_nudge h
  · exact h

end Corrections

/-! ## Runs -/

section Runs

variable {F : Type} {fl : Floats F}

theorem length_applyGain (fl : Floats F) (samples : List Player.Sample) (gain : F) :
    (applyGain fl samples gain).length = samples.length := by
  unfold applyGain
  split
  · rfl
  · split <;> rw [List.length_map]

/-- The gain a use sets, if it does. -/
def Use.gain? (fl : Floats F) : Use → Option F
  | .volume db => some (clamp fl (volumeToGain fl (fl.ofBits db)))
  | _ => none

def Use.format? : Use → Option Format
  | .stream format => some format
  | _ => none

/-- Writes since the device was last opened or flushed. -/
def Use.count (n : Nat) : Use → Nat
  | .volume _ => n
  | .write _ _ => n + 1
  | .stream _ | .flush => 0

/-- Nothing is counted for a device that did not open. -/
def Format.writes (format : Format) (n : Nat) : Nat := if format.opened then n else 0

theorem counted_writes_zero (format : Format) :
    counted format (format.writes 0) = .openDevice format := by
  rw [Format.writes, ite_self, counted_zero]

/-- What the device gets of the audio of one write. -/
structure FedWith (fl : Floats F) (format : Format) (gain : F) (n : Nat) (device : Device)
    (pcm : List Player.Sample) (fed : Fed) : Prop where
  discarded : format.opened = false → fed = ⟨[], []⟩
  chunk : format.opened = true →
    fed.chunk = corrected format n device.delay (applyGain fl pcm gain)
  front : fed.took <+: fed.chunk
  whole : format.channels.toNat ∣ fed.took.length
  all : device.Steady → fed.took = fed.chunk

/-- The host after some uses. -/
def Host.at (format : Format) (n : Nat) (gain : F) : Host F :=
  ⟨counted format (format.writes n), gain⟩

theorem step_write {format : Format} {n : Nat} {gain : F} {device : Device}
    {pcm : List Player.Sample} {h : Host F} {fed : Option Fed}
    (hstep : (Host.at format n gain).step fl (.write device pcm) = some (h, fed)) :
    h = .at format (n + 1) gain ∧ ∃ f, fed = some f ∧ FedWith fl format gain n device pcm f := by
  obtain ⟨⟨sink, chunk, took⟩, hwrite, hresult⟩ := Option.map_eq_some_iff.mp hstep
  cases hresult
  cases hopened : format.opened with
  | false =>
    have hclosed : (Host.at format n gain).sink.opened = false := hopened
    simp only [AlsaSink.write, hclosed] at hwrite
    cases hwrite
    have hcount : ∀ m, format.writes m = 0 := fun m => by simp [Format.writes, hopened]
    refine ⟨by simp [Host.at, hcount], _, rfl, ⟨fun _ => rfl, ?_, ?_, ?_, fun _ => rfl⟩⟩
    · intro hyes
      rw [hopened] at hyes
      cases hyes
    · exact List.prefix_rfl
    · exact Nat.dvd_zero _
  | true =>
    have hcount : ∀ m, format.writes m = m := fun m => by simp [Format.writes, hopened]
    have hopen : (counted format n).opened = true := hopened
    simp only [AlsaSink.write, Host.at, hcount, adjust_counted, if_pos hopen] at hwrite
    obtain ⟨_, htakes, hresult⟩ := Option.map_eq_some_iff.mp hwrite
    cases hresult
    obtain ⟨hfront, hwhole, hall⟩ := write_takes htakes
    refine ⟨by simp [Host.at, hcount], ⟨_, _⟩, rfl, ⟨?_, fun _ => rfl, hfront, hwhole, hall⟩⟩
    intro hno
    rw [hopened] at hno
    cases hno

theorem step_whole {format : Format} {n : Nat} {gain : F} {device : Device}
    {pcm chunk : List Player.Sample} (hopened : format.opened = true)
    (hchunk : corrected format n device.delay (applyGain fl pcm gain) = chunk)
    (htakes : AlsaOutput.write format.channels.toNat device chunk = some chunk) :
    (Host.at format n gain).step fl (.write device pcm) =
      some (.at format (n + 1) gain, some ⟨chunk, chunk⟩) := by
  have hcount : ∀ m, format.writes m = m := fun m => by simp [Format.writes, hopened]
  have hopen : (counted format n).opened = true := hopened
  have hchannels : (counted format (n + 1)).channels = format.channels.toNat := rfl
  simp only [Host.step, AlsaSink.write, Host.at, hcount, hopen, if_true, adjust_counted, hchunk,
    hchannels, htakes, Option.map_some]

theorem step_at {format : Format} {n : Nat} {gain : F} {use : Use} {h : Host F} {fed : Option Fed}
    (hstep : (Host.at format n gain).step fl use = some (h, fed)) :
    h = .at (use.format?.getD format) (use.count n) ((use.gain? fl).getD gain) := by
  cases use with
  | volume db =>
    cases hstep
    rfl
  | stream format' =>
    cases hstep
    unfold Host.at
    simp only [Use.format?, Use.count, Use.gain?, Option.getD_some, Option.getD_none,
      counted_writes_zero]
  | write device pcm => exact (step_write hstep).1
  | flush =>
    cases hstep
    unfold Host.at
    simp only [Use.format?, Use.count, Use.gain?, Option.getD_none, counted_writes_zero,
      flush_counted]

theorem run_cons_some {h h' : Host F} {use : Use} {uses : List Use} {feds : List (Option Fed)} :
    h.run fl (use :: uses) = some (h', feds) ↔ ∃ mid fed rest, h.step fl use = some (mid, fed) ∧
      mid.run fl uses = some (h', rest) ∧ feds = fed :: rest := by
  simp only [Host.run, Option.bind_eq_bind, Option.bind_eq_some_iff, Option.pure_def,
    Option.some.injEq, Prod.mk.injEq, Prod.exists]
  constructor
  · rintro ⟨mid, fed, hstep, last, rest, hrun, rfl, rfl⟩
    exact ⟨mid, fed, rest, hstep, hrun, rfl⟩
  · rintro ⟨mid, fed, rest, hstep, hrun, rfl⟩
    exact ⟨mid, fed, hstep, h', rest, hrun, rfl, rfl⟩

theorem run_append {h mid h' : Host F} {uses more : List Use} {feds rest : List (Option Fed)}
    (hfirst : h.run fl uses = some (mid, feds)) (hmore : mid.run fl more = some (h', rest)) :
    h.run fl (uses ++ more) = some (h', feds ++ rest) := by
  induction uses generalizing h feds with
  | nil =>
    cases hfirst
    exact hmore
  | cons use uses ih =>
    obtain ⟨next, fed, later, hstep, hlater, rfl⟩ := run_cons_some.mp hfirst
    exact run_cons_some.mpr ⟨next, fed, _, hstep, ih hlater, rfl⟩

/-- Writes of one stream at one volume, each known by the number before it. -/
theorem run_writes {format : Format} {gain : F} {use : Nat → Use} {fed : Nat → Option Fed} (k : Nat)
    (hstep : ∀ n < k, (Host.at format n gain).step fl (use n) =
      some (.at format (n + 1) gain, fed n)) :
    (Host.at format 0 gain).run fl ((List.range k).map use) =
      some (.at format k gain, (List.range k).map fed) := by
  induction k with
  | zero => rfl
  | succ k ih =>
    rw [List.range_succ, List.map_append, List.map_append]
    refine run_append (ih fun n hn => hstep n (by omega)) ?_
    exact run_cons_some.mpr ⟨_, _, [], hstep k (by omega), rfl, rfl⟩

theorem fed_at {uses : List Use} {format : Format} {n : Nat} {gain : F} {h : Host F}
    {feds : List (Option Fed)} (hrun : (Host.at format n gain).run fl uses = some (h, feds))
    {pre post : List Use} {device : Device} {pcm : List Player.Sample}
    (hsplit : uses = pre ++ .write device pcm :: post) :
    ∃ fed, feds[pre.length]? = some (some fed) ∧
      FedWith fl (after Use.format? format pre) (after (Use.gain? fl) gain pre)
        (pre.foldl Use.count n) device pcm fed := by
  induction uses generalizing feds pre n format gain with
  | nil => simp at hsplit
  | cons use uses ih =>
    obtain ⟨mid, fed, rest, hstep, hrest, rfl⟩ := run_cons_some.mp hrun
    cases pre with
    | nil =>
      obtain ⟨rfl, rfl⟩ := List.cons.inj hsplit
      obtain ⟨-, f, rfl, hfed⟩ := step_write hstep
      exact ⟨f, rfl, hfed⟩
    | cons first pre =>
      obtain ⟨rfl, rfl⟩ := List.cons.inj hsplit
      rw [step_at hstep] at hrest
      exact ih hrest rfl

theorem at_zero (format : Format) (gain : F) :
    (⟨.openDevice format, gain⟩ : Host F) = .at format 0 gain := by
  rw [Host.at, counted_writes_zero]

/-- Whatever the uses and the answers of the device, each write is scaled by the volume in force,
corrected by at most a frame on every fiftieth since the device was opened or flushed, and the
device takes whole frames from its front: all of it unless it is stuck or gives up. -/
theorem device_fed (fl : Floats F) (format : Format) (gain : F) (uses : List Use) (h : Host F)
    (feds : List (Option Fed))
    (hrun : Host.run fl ⟨.openDevice format, gain⟩ uses = some (h, feds)) :
    ∀ pre device pcm post, uses = pre ++ .write device pcm :: post →
      ∃ fed, feds[pre.length]? = some (some fed) ∧
        FedWith fl (after Use.format? format pre) (after (Use.gain? fl) gain pre)
          (pre.foldl Use.count 0) device pcm fed := by
  intro pre device pcm post hsplit
  rw [at_zero] at hrun
  exact fed_at hrun hsplit

/-- A finite `f32` in units of 2^-149. -/
def unitsOfBits (bits : BitVec 32) : Int :=
  let exponent := bits.toNat / 2 ^ 23 % 2 ^ 8
  let mantissa := bits.toNat % 2 ^ 23
  let units : Nat := if exponent = 0 then mantissa else (mantissa + 2 ^ 23) * 2 ^ (exponent - 1)
  if bits.msb then -units else units

/-- Finite floats, with one gain for all decibels below full volume. -/
def coarse : Floats Int where
  ofBits := unitsOfBits
  le a b := a ≤ b
  lt a b := a < b
  zero := 0
  one := 2 ^ 149
  muteDb := -144 * 2 ^ 149
  ofDecibel db := if 0 ≤ db then 2 ^ 149 else 0
  scale _ x := x

/-- −144 dB -/
def muteBits : BitVec 32 := 0xC3100000

def stereo : Format := ⟨true, 44100, 2⟩

/-- A frame of two samples in two calls, after an error that was recovered from. -/
def halting : Device := ⟨true, some 8000, [.written 1, .failed true, .written 1]⟩

/-- Two writes, muted and flushed in between. -/
def mutedUses : List Use :=
  [.write halting [1, 2, 3, 4]] ++ .volume muteBits :: [.flush, .write halting [5, 6, 7, 8]]

def mutedFeds : List (Option Fed) :=
  [some ⟨[1, 2, 3, 4], [1, 2, 3, 4]⟩, none, none, some ⟨[0, 0, 0, 0], [0, 0, 0, 0]⟩]

theorem run_mutedUses : Host.run coarse ⟨.openDevice stereo, coarse.one⟩ mutedUses =
    some (⟨counted stereo 1, 0⟩, mutedFeds) := rfl

theorem device_fed_muted : ∃ fed, mutedFeds[3]? = some (some fed) ∧
    FedWith coarse stereo 0 0 halting [5, 6, 7, 8] fed :=
  device_fed coarse stereo coarse.one mutedUses _ mutedFeds run_mutedUses
    [.write halting [1, 2, 3, 4], .volume muteBits, .flush] halting [5, 6, 7, 8] [] rfl

/-! ## Muted -/

/-- Comparisons of the two ends of the gain. -/
structure Floats.Ordered (fl : Floats F) : Prop where
  zero_le_zero : fl.le fl.zero fl.zero = true
  one_le_zero : fl.le fl.one fl.zero = false
  zero_lt_zero : fl.lt fl.zero fl.zero = false
  one_lt_zero : fl.lt fl.one fl.zero = false

theorem gain_muted (hfl : fl.Ordered) {db : BitVec 32}
    (hmute : fl.le (fl.ofBits db) fl.muteDb = true) :
    Use.gain? fl (.volume db) = some fl.zero := by
  simp [Use.gain?, volumeToGain, clamp, hmute, hfl.zero_lt_zero, hfl.one_lt_zero]

theorem applyGain_zero (hfl : fl.Ordered) (samples : List Player.Sample) :
    ∀ x ∈ applyGain fl samples fl.zero, x = 0 := by
  intro x hx
  simp only [applyGain, hfl.one_le_zero, Bool.false_eq_true, if_false, hfl.zero_le_zero,
    if_true] at hx
  obtain ⟨_, -, rfl⟩ := List.mem_map.mp hx
  rfl

/-- From a mute to the next volume the device gets silence only, through corrections, flushes
and new streams. -/
theorem muted_silent (fl : Floats F) (hfl : fl.Ordered) (format : Format) (gain : F)
    (pre post : List Use) (db : BitVec 32) (hmute : fl.le (fl.ofBits db) fl.muteDb = true)
    (hkeep : ∀ use ∈ post, Use.gain? fl use = none) (h : Host F) (feds : List (Option Fed))
    (hrun : Host.run fl ⟨.openDevice format, gain⟩ (pre ++ .volume db :: post) = some (h, feds)) :
    ∀ before device pcm rest, post = before ++ .write device pcm :: rest →
      ∃ fed, feds[pre.length + 1 + before.length]? = some (some fed) ∧
        ∀ x ∈ fed.took, x = 0 := by
  rintro before device pcm rest rfl
  rw [at_zero] at hrun
  have hsplit : pre ++ .volume db :: (before ++ .write device pcm :: rest) =
      (pre ++ .volume db :: before) ++ .write device pcm :: rest := by
    rw [List.append_assoc, List.cons_append]
  obtain ⟨fed, hfed, hwith⟩ := fed_at hrun hsplit
  have hgain : after (Use.gain? fl) gain (pre ++ .volume db :: before) = fl.zero := by
    rw [after_append, after_cons, gain_muted hfl hmute, Option.getD_some, after_of_silent]
    exact fun use huse => hkeep use (List.mem_append_left _ huse)
  have hindex : (pre ++ Use.volume db :: before).length = pre.length + 1 + before.length := by
    rw [List.length_append, List.length_cons]
    omega
  refine ⟨fed, hindex ▸ hfed, fun x hx => ?_⟩
  cases hopened : (after Use.format? format (pre ++ .volume db :: before)).opened with
  | false =>
    rw [hwith.discarded hopened] at hx
    cases hx
  | true =>
    have hchunk := hwith.front.subset hx
    rw [hwith.chunk hopened, hgain] at hchunk
    exact applyGain_zero hfl pcm x (mem_corrected hchunk)

theorem coarse_ordered : coarse.Ordered := ⟨by decide, by decide, by decide, by decide⟩

theorem muted_silent_flush : ∃ fed, mutedFeds[3]? = some (some fed) ∧ ∀ x ∈ fed.took, x = 0 := by
  have hkeep : ∀ use ∈ [Use.flush, .write halting [5, 6, 7, 8]],
      Use.gain? coarse use = none := by
    intro use huse
    simp only [List.mem_cons, List.not_mem_nil, or_false] at huse
    rcases huse with rfl | rfl <;> rfl
  exact muted_silent coarse coarse_ordered stereo coarse.one _ _ muteBits (by decide) hkeep _ _
    run_mutedUses [.flush] halting [5, 6, 7, 8] [] rfl

/-! ## How far corrections go -/

def Use.offered : Use → Nat
  | .write _ pcm => pcm.length
  | _ => 0

def Use.isWrite : Use → Bool
  | .write _ _ => true
  | _ => false

def handed (feds : List (Option Fed)) : Nat :=
  (feds.map fun fed => (fed.map fun f => f.chunk.length).getD 0).sum

theorem length_corrected (format : Format) (n : Nat) (delay : Option Int)
    (scratch : List Player.Sample) :
    |((corrected format n delay scratch).length : Int) - scratch.length| ≤
      if 0 < n ∧ 50 ∣ n then (format.channels.toNat : Int) else 0 := by
  unfold corrected
  split
  · cases delay with
    | none => simp
    | some depth =>
      simp only [length_nudge, add_sub_cancel_left]
      have hchannels : (AlsaSink.openDevice format).channels = format.channels.toNat := rfl
      split
      · rw [hchannels, abs_mul, Nat.abs_cast]
        rcases driftAction_cases depth (AlsaSink.openDevice format).targetDepth
          (AlsaSink.openDevice format).driftThreshold with haction | haction | haction <;>
            rw [haction] <;> simp
      · simp
  · simp

theorem handed_bounded {uses : List Use} {format : Format} (hopened : format.opened = true)
    {n : Nat} {gain : F} {h : Host F} {feds : List (Option Fed)}
    (hstay : ∀ use ∈ uses, Use.format? use = none)
    (hrun : (Host.at format n gain).run fl uses = some (h, feds)) :
    |(handed feds : Int) - (uses.map Use.offered).sum| ≤
      format.channels.toNat * (((n - 1) % 50 + uses.countP Use.isWrite) / 50 : Nat) := by
  induction uses generalizing n gain feds with
  | nil =>
    cases hrun
    simp [handed]
  | cons use uses ih =>
    obtain ⟨mid, fed, rest, hstep, hrest, rfl⟩ := run_cons_some.mp hrun
    have hstay' : ∀ use ∈ uses, Use.format? use = none :=
      fun other hother => hstay other (List.mem_cons_of_mem _ hother)
    have hsame := hstay use List.mem_cons_self
    have hmid := step_at hstep
    rw [hsame, Option.getD_none] at hmid
    subst hmid
    have htail := ih hstay' hrest
    have hmono : ∀ a b : Nat, a ≤ b → (format.channels.toNat : Int) * (a / 50 : Nat) ≤
        format.channels.toNat * (b / 50 : Nat) := by
      intro a b hab
      exact_mod_cast Nat.mul_le_mul_left _ (Nat.div_le_div_right hab)
    cases use with
    | write device pcm =>
      obtain ⟨-, f, rfl, hfed⟩ := step_write hstep
      have hone := length_corrected format n device.delay (applyGain fl pcm gain)
      rw [← hfed.chunk hopened, length_applyGain] at hone
      have hsum : (handed (some f :: rest) : Int) -
          ((Use.write device pcm :: uses).map Use.offered).sum =
            ((f.chunk.length : Int) - pcm.length) +
              ((handed rest : Int) - (uses.map Use.offered).sum) := by
        simp only [handed, Use.offered, List.map_cons, List.sum_cons, Option.map_some,
          Option.getD_some]
        omega
      have hcount : (Use.write device pcm :: uses).countP Use.isWrite =
          uses.countP Use.isWrite + 1 := List.countP_cons_of_pos rfl
      rw [hsum, hcount]
      rw [Use.count, Nat.add_sub_cancel] at htail
      refine (abs_add_le _ _).trans ((add_le_add hone htail).trans ?_)
      split
      · rename_i hcheck
        -- the forty-nine writes before this one pay for its correction
        have hphase : (n - 1) % 50 + (uses.countP Use.isWrite + 1) =
            n % 50 + uses.countP Use.isWrite + 50 := by omega
        rw [hphase, Nat.add_div_right _ (by decide)]
        push_cast
        ring_nf
        exact le_refl _
      · rw [zero_add]
        apply hmono
        omega
    | volume db =>
      simp only [Host.step, Option.some.injEq, Prod.mk.injEq] at hstep
      obtain ⟨-, rfl⟩ := hstep
      simpa [handed, Use.offered, Use.isWrite, Use.count] using htail
    | flush =>
      simp only [Host.step, Option.some.injEq, Prod.mk.injEq] at hstep
      obtain ⟨-, rfl⟩ := hstep
      have hcount : (Use.flush :: uses).countP Use.isWrite = uses.countP Use.isWrite := by
        simp [Use.isWrite]
      have hsum : (handed (none :: rest) : Int) - ((Use.flush :: uses).map Use.offered).sum =
          (handed rest : Int) - (uses.map Use.offered).sum := by
        simp [handed, Use.offered]
      rw [hsum, hcount]
      refine htail.trans (hmono _ _ ?_)
      simp only [Use.count]
      omega
    | stream format' => cases hsame

/-- Through volumes and flushes a stream is handed to the device within a frame for every fifty
writes of the audio it has, so it can run fast or slow by no more than that. -/
theorem drift_bounded (fl : Floats F) (format : Format) (hopened : format.opened = true) (gain : F)
    (uses : List Use) (hstay : ∀ use ∈ uses, Use.format? use = none) (h : Host F)
    (feds : List (Option Fed))
    (hrun : Host.run fl ⟨.openDevice format, gain⟩ uses = some (h, feds)) :
    |(handed feds : Int) - (uses.map Use.offered).sum| ≤
      format.channels.toNat * (uses.countP Use.isWrite / 50 : Nat) := by
  rw [at_zero] at hrun
  have hbound := handed_bounded hopened hstay hrun
  rwa [Nat.zero_sub, Nat.zero_mod, Nat.zero_add] at hbound

/-- Fifty writes, one that is a frame longer because the queue is too shallow, and two more uses
and a write. -/
def correctedUses : List Use :=
  .replicate 50 (.write halting [1, 2, 3, 4]) ++
    [.write ⟨true, some 8000, [.written 3]⟩ [1, 2, 3, 4], .volume muteBits, .flush,
      .write halting [5, 6, 7, 8]]

def correctedFeds : List (Option Fed) :=
  .replicate 50 (some ⟨[1, 2, 3, 4], [1, 2, 3, 4]⟩) ++
    [some ⟨[1, 2, 3, 4, 3, 4], [1, 2, 3, 4, 3, 4]⟩, none, none,
      some ⟨[0, 0, 0, 0], [0, 0, 0, 0]⟩]

theorem step_halting {n : Nat} (hn : n < 50) :
    (Host.at stereo n coarse.one).step coarse (.write halting [1, 2, 3, 4]) =
      some (.at stereo (n + 1) coarse.one, some ⟨[1, 2, 3, 4], [1, 2, 3, 4]⟩) := by
  have hunchecked : ¬(0 < n ∧ 50 ∣ n) := by omega
  exact step_whole rfl (if_neg hunchecked) rfl

theorem run_correctedUses : Host.run coarse ⟨.openDevice stereo, coarse.one⟩ correctedUses =
    some (⟨counted stereo 1, 0⟩, correctedFeds) := by
  rw [at_zero]
  have hfirst := run_writes 50 fun n hn => step_halting hn
  rw [List.map_const', List.map_const', List.length_range] at hfirst
  exact run_append hfirst rfl

theorem drift_bounded_corrected : (handed correctedFeds : Int) = 210 ∧
    |(handed correctedFeds : Int) - (correctedUses.map Use.offered).sum| ≤
      stereo.channels.toNat * (correctedUses.countP Use.isWrite / 50 : Nat) := by
  have hstay : ∀ use ∈ correctedUses, Use.format? use = none := by
    intro use huse
    rcases List.mem_append.mp huse with hfirst | hlast
    · rw [List.eq_of_mem_replicate hfirst]
      rfl
    · simp only [List.mem_cons, List.not_mem_nil, or_false] at hlast
      rcases hlast with rfl | rfl | rfl | rfl <;> rfl
  exact ⟨rfl, drift_bounded coarse stereo rfl coarse.one correctedUses hstay _ correctedFeds
    run_correctedUses⟩

end Runs

end OpenAirplay.Alsa
