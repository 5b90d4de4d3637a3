import Mathlib.Algebra.Order.Floor.Div
import Mathlib.Data.List.ReduceOption
import Mathlib.Data.Rat.Floor
import OpenAirplay.Lifecycle
import OpenAirplay.Threads

/-!
# Positions in a track

A progress line of the sender and the playback thread both say where in the track the audio
is, the one by saturating and the other by wrapping subtraction of timestamps. What the
thread reports over a whole track comes once a second.
-/

namespace OpenAirplay

open Program Text

set_option autoImplicit false

theorem framesToDuration_of_ne {rate : U32} (h : rate ≠ 0) (frames : U32) :
    framesToDuration frames rate = (frames.toNat : ℚ) / rate.toNat := if_neg h

theorem toNat_ne_zero {rate : U32} (h : rate ≠ 0) : rate.toNat ≠ 0 := by
  intro hzero
  exact h (BitVec.eq_of_toNat_eq hzero)

theorem framesToDuration_injective {rate : U32} (h : rate ≠ 0) :
    Function.Injective fun frames => framesToDuration frames rate := by
  intro frames frames' heq
  have hrate : (rate.toNat : ℚ) ≠ 0 := Nat.cast_ne_zero.mpr (toNat_ne_zero h)
  simp only [framesToDuration_of_ne h, div_left_inj' hrate, Nat.cast_inj] at heq
  exact BitVec.eq_of_toNat_eq heq

/-! ## A progress line -/

structure ProgressLine where
  start : U32
  current : U32
  endTs : U32
  deriving DecidableEq

namespace ProgressLine

def parse (value : String) : Option ProgressLine :=
  match (split value '/').map fun p => parseU32 (trim p) with
  | [some start, some current, some endTs] => some ⟨start, current, endTs⟩
  | _ => none

def elapsed (line : ProgressLine) : U32 := Session.saturatingSub line.current line.start

def length (line : ProgressLine) : U32 := Session.saturatingSub line.endTs line.start

/-- The report of a line in frames of this rate. -/
def report (rate : U32) (line : ProgressLine) : Event :=
  .progress (framesToDuration line.elapsed rate) (framesToDuration line.length rate)

end ProgressLine

theorem ProgressLine.parse_eq_some_iff {value : String} {line : ProgressLine} :
    parse value = some line ↔ ((split value '/').map fun p => parseU32 (trim p)) =
      [some line.start, some line.current, some line.endTs] := by
  unfold parse
  split
  · rename_i hfields
    rw [hfields]
    constructor
    · rintro ⟨⟩
      rfl
    · rintro ⟨⟩
      rfl
  · rename_i hother
    constructor
    · intro hnone
      cases hnone
    · intro hfields
      exact absurd hfields (hother _ _ _)

theorem Session.setProgress_eq {s : Session} {params : Audio.StreamParams}
    (hparams : s.params = some params) (value : String) :
    s.setProgress value =
      if s.streaming then
        match ProgressLine.parse value with
        | some line => do
          act (.setTrack (some ⟨line.start, line.endTs⟩))
          act (.send (line.report params.alac.sampleRate))
        | none => pure ()
      else pure () := by
  simp only [Session.setProgress, hparams]
  congr 1
  cases hparse : ProgressLine.parse value with
  | some line =>
    rw [ProgressLine.parse_eq_some_iff.mp hparse]
    rfl
  | none =>
    split
    · rename_i start current endTs hfields
      have hline := @ProgressLine.parse_eq_some_iff value ⟨start, current, endTs⟩
      rw [hline.mpr hfields] at hparse
      cases hparse
    · rfl

/-- What a progress line leads to while a session is streaming at `rate`. -/
theorem Session.sentEvents_setProgress {s : Session} {params : Audio.StreamParams}
    (hparams : s.params = some params) {value : String} {trace : Trace} {u : Unit}
    (h : Runs (s.setProgress value) trace u) :
    sentEvents trace =
      if s.streaming then
        (ProgressLine.parse value).toList.map fun line => line.report params.alac.sampleRate
      else [] := by
  rw [setProgress_eq hparams] at h
  split at h
  · rename_i hstreaming
    rw [if_pos hstreaming]
    split at h
    · rename_i line hline
      rw [runs_act_bind] at h
      obtain ⟨rest, rfl, h⟩ := h
      obtain rfl := runs_act.mp h
      rw [hline]
      rfl
    · rename_i hline
      obtain ⟨rfl, -⟩ := runs_pure.mp h
      rw [hline]
      rfl
  · rename_i hidle
    rw [if_neg hidle]
    obtain ⟨rfl, -⟩ := runs_pure.mp h
    rfl

/-! ## One moment told twice -/

theorem exists_runs (p : Action Unit) : ∃ trace, Runs p trace () := ⟨_, runs_execute obliging p⟩

theorem saturatingSub_eq_sub_iff {a b : U32} : Session.saturatingSub a b = a - b ↔ b ≤ a := by
  unfold Session.saturatingSub
  split
  · constructor <;> intro h <;> bv_omega
  · rename_i hle
    exact iff_of_true rfl (BitVec.not_lt.mp hle)

theorem Player.extent_eq_some_iff {track : Track} {ts rate : U32} {elapsed duration : Duration} :
    extent track ts rate = some (elapsed, duration) ↔
      rate ≠ 0 ∧ ts - track.start ≤ track.endTs - track.start ∧
        framesToDuration (ts - track.start) rate = elapsed ∧
        framesToDuration (track.endTs - track.start) rate = duration := by
  unfold extent
  split
  · simp_all
  · split
    · simp_all
    · simp_all

/-- A moment the playback thread finds in the track is told the same way by a progress line
exactly when the track does not end before it starts. -/
theorem progress_agrees_iff (s : Session) (params : Audio.StreamParams) (value : String)
    (start ts endTs : U32) (elapsed duration : Duration) (hparams : s.params = some params)
    (hstreaming : s.streaming = true) (hvalue : ProgressLine.parse value = some ⟨start, ts, endTs⟩)
    (hextent : Player.extent ⟨start, endTs⟩ ts params.alac.sampleRate = some (elapsed, duration)) :
    (∀ trace, Runs (s.setProgress value) trace () →
        sentEvents trace = [.progress elapsed duration]) ↔ start ≤ endTs := by
  obtain ⟨hrate, hinside, rfl, rfl⟩ := Player.extent_eq_some_iff.mp hextent
  have hsent : ∀ trace, Runs (s.setProgress value) trace () →
      sentEvents trace = [.progress
        (framesToDuration (Session.saturatingSub ts start) params.alac.sampleRate)
        (framesToDuration (Session.saturatingSub endTs start) params.alac.sampleRate)] := by
    intro trace h
    rw [Session.sentEvents_setProgress hparams h, if_pos hstreaming, hvalue]
    rfl
  constructor
  · intro hsame
    obtain ⟨trace, hrun⟩ := exists_runs (s.setProgress value)
    have hevents := (hsent _ hrun).symm.trans (hsame _ hrun)
    simp only [List.cons.injEq, Event.progress.injEq, and_true] at hevents
    exact saturatingSub_eq_sub_iff.mp (framesToDuration_injective hrate hevents.2)
  · intro hordered trace h
    have hstarted : start ≤ ts := by bv_omega
    rw [hsent trace h, saturatingSub_eq_sub_iff.mpr hordered,
      saturatingSub_eq_sub_iff.mpr hstarted]

def cdConfig : AlacConfig :=
  ⟨352, 16, 2, 44100, #v[96, 352, 0, 16, 40, 10, 14, 2, 255, 1416, 0, 44100]⟩

def plainParams (alac : AlacConfig) : Audio.StreamParams :=
  ⟨false, .replicate 16 0, .replicate 16 0, alac⟩

/-- A request handled in surroundings in which everything succeeds. -/
def Context.obliged (ctx : Context) (s : Session) (request : Request) : Session :=
  ((ctx.dispatch s request).execute obliging).2.1

/-- The session of a client that has announced a stream. -/
def cdClient : Session :=
  { client with authorized := true, params := some (plainParams cdConfig) }

def streamingClient : Session := openContext.obliged cdClient setupRequest

theorem streamingClient_params :
    streamingClient.params = some (plainParams cdConfig) ∧ streamingClient.streaming = true := by
  decide +kernel

theorem progress_agrees_inside :
    (∀ trace, Runs (streamingClient.setProgress "1000/45100/7939000") trace () →
        sentEvents trace = [.progress (44100 / 44100) (7938000 / 44100)]) ↔
      (1000 : U32) ≤ 7939000 :=
  progress_agrees_iff streamingClient _ "1000/45100/7939000" 1000 45100 7939000 (44100 / 44100)
    (7938000 / 44100) streamingClient_params.1 streamingClient_params.2 (by decide +kernel)
    (by decide +kernel)

/-- A second into five minutes that start a minute before the timestamps wrap. -/
theorem wrapped_track_disagrees :
    Player.extent ⟨4292321296, 10584000⟩ 4292365396 44100 = some (1, 300) ∧
      (streamingClient.params = some (plainParams cdConfig) ∧ streamingClient.streaming = true) ∧
      ProgressLine.parse "4292321296/4292365396/10584000" =
        some ⟨4292321296, 4292365396, 10584000⟩ ∧
      (∀ trace, Runs (streamingClient.setProgress "4292321296/4292365396/10584000") trace () →
        sentEvents trace = [.progress 1 0]) ∧
      ¬∀ trace, Runs (streamingClient.setProgress "4292321296/4292365396/10584000") trace () →
        sentEvents trace = [.progress 1 300] := by
  have hparse : ProgressLine.parse "4292321296/4292365396/10584000" =
      some ⟨4292321296, 4292365396, 10584000⟩ := by decide +kernel
  have hsent : ∀ trace,
      Runs (streamingClient.setProgress "4292321296/4292365396/10584000") trace () →
        sentEvents trace = [.progress 1 0] := by
    intro trace h
    rw [Session.sentEvents_setProgress streamingClient_params.1 h,
      if_pos streamingClient_params.2, hparse]
    decide +kernel
  refine ⟨by decide +kernel, streamingClient_params, hparse, hsent, ?_⟩
  intro hsame
  obtain ⟨trace, hrun⟩ := exists_runs
    (streamingClient.setProgress "4292321296/4292365396/10584000")
  have hevents := (hsent _ hrun).symm.trans (hsame _ hrun)
  revert hevents
  decide

/-! ## A whole track -/

namespace Player

open List (range)

/-- The timestamps of `n` packets of `fpp` frames from the start of the track. -/
def timestamps (start : U32) (fpp n : Nat) : List U32 :=
  (range n).map fun j => start + BitVec.ofNat 32 (j * fpp)

namespace Position

/-- The answers to these calls of `played`. -/
def told (track : Option Track) : Position → List U32 → List (Option Event)
  | _, [] => []
  | p, ts :: rest => (p.played track ts).1 :: told track (p.played track ts).2 rest

def after (track : Option Track) (p : Position) (tss : List U32) : Position :=
  tss.foldl (fun p ts => (p.played track ts).2) p

theorem told_snoc (track : Option Track) (p : Position) (tss : List U32) (ts : U32) :
    p.told track (tss ++ [ts]) =
      p.told track tss ++ [((p.after track tss).played track ts).1] := by
  induction tss generalizing p with
  | nil => rfl
  | cons t tss ih =>
    rw [List.cons_append, told, told, ih, List.cons_append]
    rfl

theorem after_snoc (track : Option Track) (p : Position) (tss : List U32) (ts : U32) :
    p.after track (tss ++ [ts]) = ((p.after track tss).played track ts).2 := by
  simp [after, List.foldl_append]

end Position

/-- How many frames the track has. -/
def frames (track : Track) : Nat := (track.endTs - track.start).toNat

/-- The whole second in which packet `j` starts. -/
def second (rate fpp j : Nat) : Nat := j * fpp / rate

/-- The first packet that starts in second `s` or later. -/
def firstOf (rate fpp s : Nat) : Nat := s * rate ⌈/⌉ fpp

/-- The report made of packet `j`. -/
def report (track : Track) (rate : U32) (fpp j : Nat) : Event :=
  .progress ((j * fpp : Nat) / rate.toNat) (frames track / rate.toNat)

/-- Packet `j` is the first of its second, and inside the track. -/
def Due (track : Track) (rate fpp j : Nat) : Prop :=
  j * fpp ≤ frames track ∧ firstOf rate fpp (second rate fpp j) = j

instance (track : Track) (rate fpp j : Nat) : Decidable (Due track rate fpp j) :=
  inferInstanceAs (Decidable (_ ∧ _))

/-- The second of the last of the packets up to `n` that is inside the track. -/
def lastSecond (track : Track) (rate fpp n : Nat) : Nat :=
  second rate fpp (min n (frames track / fpp))

section Seconds

variable {rate fpp : Nat}

theorem second_mono {j k : Nat} (h : j ≤ k) : second rate fpp j ≤ second rate fpp k :=
  Nat.div_le_div_right (Nat.mul_le_mul_right fpp h)

@[simp] theorem second_zero : second rate fpp 0 = 0 := by simp [second]

@[simp] theorem firstOf_zero : firstOf rate fpp 0 = 0 := by simp [firstOf]

theorem second_succ_le (hrate : 0 < rate) (hshort : fpp ≤ rate) (j : Nat) :
    second rate fpp (j + 1) ≤ second rate fpp j + 1 := by
  have hstep : (j * fpp + rate) / rate = j * fpp / rate + 1 := Nat.add_div_right _ hrate
  have hle := Nat.div_le_div_right (c := rate) (Nat.add_le_add_left hshort (j * fpp))
  rw [second, second, Nat.add_mul, Nat.one_mul]
  omega

section Positive

variable (hrate : 0 < rate) (hfpp : 0 < fpp)

include hrate hfpp

theorem firstOf_le_iff (s j : Nat) : firstOf rate fpp s ≤ j ↔ s ≤ second rate fpp j := by
  rw [firstOf, ceilDiv_le_iff_le_mul hfpp, second, Nat.le_div_iff_mul_le hrate, Nat.mul_comm fpp]

theorem firstOf_second_le (j : Nat) : firstOf rate fpp (second rate fpp j) ≤ j :=
  (firstOf_le_iff hrate hfpp _ j).mpr le_rfl

/-- A packet is the first of its second exactly when the one before it is in another. -/
theorem firstOf_second_succ (j : Nat) :
    firstOf rate fpp (second rate fpp (j + 1)) = j + 1 ↔
      second rate fpp j ≠ second rate fpp (j + 1) := by
  have hle := firstOf_second_le hrate hfpp (j + 1)
  have hbefore := firstOf_le_iff hrate hfpp (second rate fpp (j + 1)) j
  have hmono : second rate fpp j ≤ second rate fpp (j + 1) := second_mono (Nat.le_succ j)
  omega

/-- No second is without a packet, when none is longer than a second. -/
theorem second_firstOf (hshort : fpp ≤ rate) (s : Nat) :
    second rate fpp (firstOf rate fpp s) = s := by
  have hge := (firstOf_le_iff hrate hfpp s _).mp le_rfl
  cases hfirst : firstOf rate fpp s with
  | zero =>
    rw [hfirst, second_zero] at hge
    rw [second_zero]
    omega
  | succ j =>
    have hbefore := (firstOf_le_iff hrate hfpp s j).not.mp (by omega)
    have hstep := second_succ_le hrate hshort j
    rw [hfirst] at hge
    omega

end Positive

end Seconds

section Track

variable {track : Track} {rate fpp : Nat}

theorem inside_iff (hfpp : 0 < fpp) (j : Nat) :
    j * fpp ≤ frames track ↔ j ≤ frames track / fpp := (Nat.le_div_iff_mul_le hfpp).symm

theorem due_zero : Due track rate fpp 0 := by simp [Due]

theorem lastSecond_of_due (hfpp : 0 < fpp) {n : Nat} (h : Due track rate fpp n) :
    lastSecond track rate fpp n = second rate fpp n := by
  rw [lastSecond, min_eq_left ((inside_iff hfpp n).mp h.1)]

variable (hrate : 0 < rate) (hfpp : 0 < fpp)

include hrate hfpp

/-- The thread compares with the second it reported last. -/
theorem due_succ_iff (n : Nat) :
    Due track rate fpp (n + 1) ↔
      (n + 1) * fpp ≤ frames track ∧ lastSecond track rate fpp n ≠ second rate fpp (n + 1) := by
  refine and_congr_right fun hinside => ?_
  have hlast : min n (frames track / fpp) = n := by
    have := (inside_iff hfpp _).mp hinside
    omega
  rw [firstOf_second_succ hrate hfpp, lastSecond, hlast]

theorem lastSecond_succ_of_due (hshort : fpp ≤ rate) {n : Nat}
    (h : Due track rate fpp (n + 1)) :
    lastSecond track rate fpp (n + 1) = lastSecond track rate fpp n + 1 := by
  have hinside := (inside_iff hfpp _).mp h.1
  have hnew := (firstOf_second_succ hrate hfpp n).mp h.2
  have hmono : second rate fpp n ≤ second rate fpp (n + 1) := second_mono (Nat.le_succ n)
  have hstep := second_succ_le hrate hshort n
  rw [lastSecond_of_due hfpp h, lastSecond, min_eq_left (by omega)]
  omega

theorem lastSecond_succ_of_not_due {n : Nat} (h : ¬Due track rate fpp (n + 1)) :
    lastSecond track rate fpp (n + 1) = lastSecond track rate fpp n := by
  rw [due_succ_iff hrate hfpp, inside_iff hfpp, not_and, not_not] at h
  rcases Nat.lt_or_ge (frames track / fpp) (n + 1) with hpast | hinside
  · rw [lastSecond, lastSecond, min_eq_right hpast.le, min_eq_right (by omega)]
  · rw [h hinside, lastSecond, min_eq_left hinside]

end Track

/-! ### The reports -/

section Reports

variable {track : Track} {rate : U32} {fpp : Nat}

/-- What the thread answers to packet `j`. -/
def answer (track : Track) (rate : U32) (fpp j : Nat) : Option Event :=
  if Due track rate.toNat fpp j then some (report track rate fpp j) else none

theorem floor_div (k r : Nat) : ((k : ℚ) / r).floor.toNat = k / r := by
  have hfloor := Rat.floor_natCast_div_natCast k r
  change ((k : ℚ) / r).floor = (k : Int) / (r : Int) at hfloor
  rw [hfloor, ← Int.natCast_ediv, Int.toNat_natCast]

theorem extent_packet (hrate : rate ≠ 0) {j : Nat} (hj : j * fpp < 2 ^ 32) :
    extent track (track.start + BitVec.ofNat 32 (j * fpp)) rate =
      if j * fpp ≤ frames track then
        some (((j * fpp : Nat) : ℚ) / rate.toNat, (frames track : ℚ) / rate.toNat)
      else none := by
  have hplayed : (track.start + BitVec.ofNat 32 (j * fpp) - track.start).toNat = j * fpp := by
    rw [add_sub_cancel_left, BitVec.toNat_ofNat, Nat.mod_eq_of_lt hj]
  by_cases hinside : j * fpp ≤ frames track
  · rw [if_pos hinside]
    refine extent_eq_some_iff.mpr ⟨hrate, ?_, ?_, framesToDuration_of_ne hrate _⟩
    · rw [BitVec.le_def, hplayed]
      exact hinside
    · rw [framesToDuration_of_ne hrate, hplayed]
  · have hpast : track.endTs - track.start <
        track.start + BitVec.ofNat 32 (j * fpp) - track.start := by
      rw [BitVec.lt_def, hplayed]
      exact Nat.lt_of_not_le hinside
    rw [extent, if_neg hrate, if_pos hpast, if_neg hinside]

theorem played_packet (hrate : rate ≠ 0) {j : Nat} (hj : j * fpp < 2 ^ 32) (reported : Option Nat) :
    Position.played ⟨rate, reported⟩ (some track) (track.start + BitVec.ofNat 32 (j * fpp)) =
      if j * fpp ≤ frames track ∧ reported ≠ some (second rate.toNat fpp j) then
        (some (report track rate fpp j), ⟨rate, some (second rate.toNat fpp j)⟩)
      else (none, ⟨rate, reported⟩) := by
  have hfloor : (((j * fpp : Nat) : ℚ) / rate.toNat).floor.toNat = second rate.toNat fpp j :=
    floor_div _ _
  unfold Position.played
  rw [Option.bind_some, extent_packet hrate hj]
  by_cases hinside : j * fpp ≤ frames track
  · simp only [hinside, if_true, true_and, hfloor]
    by_cases hsame : reported = some (second rate.toNat fpp j)
    · rw [if_pos hsame, if_neg (not_not.mpr hsame)]
    · rw [if_neg hsame, if_pos hsame]
      rfl
  · rw [if_neg hinside, if_neg (not_and_of_not_left _ hinside)]

theorem timestamps_succ (start : U32) (fpp n : Nat) :
    timestamps start fpp (n + 1) =
      timestamps start fpp n ++ [start + BitVec.ofNat 32 (n * fpp)] := by
  rw [timestamps, List.range_succ, List.map_append]
  rfl

theorem after_packets (hrate : 0 < rate.toNat) (hfpp : 0 < fpp) {n : Nat} (hn : n * fpp < 2 ^ 32) :
    Position.told (some track) ⟨rate, none⟩ (timestamps track.start fpp (n + 1)) =
        (range (n + 1)).map (answer track rate fpp) ∧
      Position.after (some track) ⟨rate, none⟩ (timestamps track.start fpp (n + 1)) =
        ⟨rate, some (lastSecond track rate.toNat fpp n)⟩ := by
  have hne : rate ≠ 0 := by
    rintro rfl
    exact Nat.lt_irrefl 0 hrate
  induction n with
  | zero =>
    have hfirst := @played_packet track rate fpp hne 0 hn none
    rw [if_pos ⟨by simp, by simp⟩] at hfirst
    have hlast : lastSecond track rate.toNat fpp 0 = second rate.toNat fpp 0 :=
      lastSecond_of_due hfpp due_zero
    rw [timestamps_succ, Position.told_snoc, Position.after_snoc, hlast]
    change [(Position.played ⟨rate, none⟩ (some track) _).1] = _ ∧
      (Position.played ⟨rate, none⟩ (some track) _).2 = _
    rw [hfirst]
    simp [answer, due_zero]
  | succ n ih =>
    obtain ⟨htold, hafter⟩ := ih (by rw [Nat.add_mul] at hn; omega)
    have hlast := @played_packet track rate fpp hne (n + 1) hn
      (some (lastSecond track rate.toNat fpp n))
    rw [timestamps_succ, Position.told_snoc, Position.after_snoc, htold, hafter, hlast,
      @List.range_succ (n + 1), List.map_append]
    by_cases hdue : Due track rate.toNat fpp (n + 1)
    · have hnew := (due_succ_iff hrate hfpp n).mp hdue
      rw [if_pos ⟨hnew.1, by simpa using hnew.2⟩, lastSecond_of_due hfpp hdue]
      simp [answer, hdue]
    · have hold := (due_succ_iff hrate hfpp n).not.mp hdue
      rw [if_neg (by simpa using hold), lastSecond_succ_of_not_due hrate hfpp hdue]
      simp [answer, hdue]

/-- The reports of one packet after another are one for each second. -/
theorem answers_sent (hrate : 0 < rate.toNat) (hfpp : 0 < fpp) (hshort : fpp ≤ rate.toNat)
    (n : Nat) :
    ((range (n + 1)).map (answer track rate fpp)).reduceOption =
      (range (lastSecond track rate.toNat fpp n + 1)).map fun s =>
        report track rate fpp (firstOf rate.toNat fpp s) := by
  induction n with
  | zero =>
    have hlast : lastSecond track rate.toNat fpp 0 = 0 := by
      rw [lastSecond_of_due hfpp due_zero, second_zero]
    simp [hlast, answer, due_zero, List.reduceOption]
  | succ n ih =>
    rw [List.range_succ, List.map_append, List.reduceOption_append, ih, List.map_singleton,
      List.reduceOption_singleton]
    by_cases hdue : Due track rate.toNat fpp (n + 1)
    · have hnext := lastSecond_succ_of_due hrate hfpp hshort hdue
      have hfirst : firstOf rate.toNat fpp (lastSecond track rate.toNat fpp n + 1) = n + 1 := by
        rw [← hnext, lastSecond_of_due hfpp hdue, hdue.2]
      rw [hnext, @List.range_succ (_ + 1), List.map_append,
        List.map_singleton, hfirst, answer, if_pos hdue]
      rfl
    · rw [lastSecond_succ_of_not_due hrate hfpp hdue, answer, if_neg hdue]
      exact List.append_nil _

theorem firstOf_le_last (hrate : 0 < rate.toNat) (hfpp : 0 < fpp) {n s : Nat}
    (hs : s ≤ lastSecond track rate.toNat fpp n) :
    firstOf rate.toNat fpp s ≤ min n (frames track / fpp) :=
  (firstOf_le_iff hrate hfpp s _).mpr hs

end Reports

/-- Over packets from the start of a track to its end and beyond, the thread reports once in
each second, of the first packet in it, and nothing after the end. -/
theorem reports_once_a_second (track : Track) (rate : U32) (fpp n : Nat) (hfpp : 0 < fpp)
    (hshort : fpp ≤ rate.toNat) (hn : n * fpp < 2 ^ 32) :
    (Position.told (some track) ⟨rate, none⟩
        (timestamps track.start fpp (n + 1))).reduceOption =
      (range (lastSecond track rate.toNat fpp n + 1)).map (fun s =>
        report track rate fpp (firstOf rate.toNat fpp s)) ∧
      (∀ s ≤ lastSecond track rate.toNat fpp n,
        second rate.toNat fpp (firstOf rate.toNat fpp s) = s ∧
          (∀ j < firstOf rate.toNat fpp s, second rate.toNat fpp j < s) ∧
          firstOf rate.toNat fpp s ≤ n ∧
          ((firstOf rate.toNat fpp s * fpp : Nat) : ℚ) / rate.toNat ≤
            (frames track : ℚ) / rate.toNat) ∧
      ∀ j ≤ n, (Position.told (some track) ⟨rate, none⟩
          (timestamps track.start fpp (n + 1)))[j]? =
        some (if j * fpp ≤ frames track ∧ firstOf rate.toNat fpp (second rate.toNat fpp j) = j then
          some (report track rate fpp j) else none) := by
  have hrate : 0 < rate.toNat := by omega
  obtain ⟨htold, -⟩ := @after_packets track rate fpp hrate hfpp n hn
  rw [htold]
  refine ⟨answers_sent hrate hfpp hshort n, ?_, ?_⟩
  · intro s hs
    have hlast := @firstOf_le_last track rate fpp hrate hfpp n s hs
    refine ⟨second_firstOf hrate hfpp hshort s, ?_, by omega, ?_⟩
    · intro j hj
      have := (firstOf_le_iff hrate hfpp s j).not.mp (by omega)
      omega
    · have hinside : firstOf rate.toNat fpp s * fpp ≤ frames track :=
        (inside_iff hfpp _).mpr (by omega)
      gcongr
  · intro j hj
    rw [List.getElem?_map, List.getElem?_range (by omega)]
    rfl

/-- Two seconds around the wrap of the timestamps, two packets a second. -/
theorem reports_once_a_second_wrapped :
    (Position.told (some ⟨4294923196, 44100⟩) ⟨44100, none⟩
      (timestamps 4294923196 22050 7)).reduceOption =
        [.progress 0 2, .progress 1 2, .progress 2 2] :=
  (reports_once_a_second ⟨4294923196, 44100⟩ 44100 22050 6 (by decide) (by decide)
    (by decide)).1.trans (by decide +kernel)

end Player

end OpenAirplay
