import OpenAirplay.Player
import OpenAirplay.Shared.Register

/-!
# The receiver's sink

PCM that should play goes to an ALSA device: scaled by the volume, and now and then a frame
longer or shorter to follow the clock of the device. The device is not ours: what its calls
answer comes with each write. `f32` arithmetic is a parameter as well.
-/

namespace OpenAirplay.Alsa

open Player

set_option autoImplicit false

/-- `f32` as the volume uses it; comparisons with a NaN are false. -/
structure Floats (F : Type) where
  ofBits : BitVec 32 → F
  le : F → F → Bool
  lt : F → F → Bool
  zero : F
  one : F
  /-- The mute sentinel of `SET_PARAMETER`, −144 dB. -/
  muteDb : F
  /-- `10f32.powf(db / 20.0)` -/
  ofDecibel : F → F
  /-- One sample times a gain, rounded and clamped. -/
  scale : F → Player.Sample → Player.Sample

section Volume

variable {F : Type} (fl : Floats F)

/-- `clamp(0.0, 1.0)` -/
def clamp (x : F) : F :=
  if fl.lt x fl.zero then fl.zero else if fl.lt fl.one x then fl.one else x

def volumeToGain (db : F) : F :=
  if fl.le db fl.muteDb then fl.zero else clamp fl (fl.ofDecibel db)

def applyGain (samples : List Player.Sample) (gain : F) : List Player.Sample :=
  if fl.le fl.one gain then samples
  else if fl.le gain fl.zero then samples.map fun _ => 0
  else samples.map (fl.scale gain)

end Volume

/-- How `writei` ended: frames written, or an error and whether `try_recover` coped with it. -/
inductive Writei where
  | written (frames : Nat)
  | failed (recovered : Bool)
  deriving DecidableEq

/-- The loop over `writei` until the chunk is out, or the device takes no more of it. Nothing
while the calls so far have not ended it, or are not calls it would make. -/
def AlsaOutput.writeLoop {σ : Type} (channels : Nat) : List σ → List Writei → Option (List σ)
  | frames, [] => if frames.isEmpty then some [] else none
  | frames, call :: calls =>
    if frames.isEmpty then none
    else match call with
      | .written 0 => if calls.isEmpty then some [] else none
      | .written n =>
        if n * channels ≤ frames.length then
          (writeLoop channels (frames.drop (n * channels)) calls).map
            (frames.take (n * channels) ++ ·)
        else none
      | .failed true => writeLoop channels frames calls
      | .failed false => if calls.isEmpty then some [] else none

/-- What a write meets at the device: whether there is a handle to write by, how many frames are
queued if that is known, and the calls that write the chunk. -/
structure Device where
  handle : Bool
  delay : Option Int
  calls : List Writei

def AlsaOutput.write {σ : Type} (channels : Nat) (device : Device) (samples : List σ) :
    Option (List σ) :=
  if device.handle then writeLoop channels samples device.calls
  else if device.calls.isEmpty then some [] else none

/-- One frame more where the queue is too shallow, one less where it is too deep. -/
def driftAction (depth target threshold : Int) : Int :=
  if depth < target - threshold then 1 else if target + threshold < depth then -1 else 0

/-- What a stream opens the device with, and whether it could be opened. -/
structure Format where
  opened : Bool
  rate : U32
  channels : BitVec 8

structure AlsaSink where
  opened : Bool
  channels : Nat
  targetDepth : Int
  driftThreshold : Int
  sinceDriftCheck : Nat
  started : Bool

namespace AlsaSink

def openDevice (format : Format) : AlsaSink where
  opened := format.opened
  channels := format.channels.toNat
  targetDepth := (format.rate.toNat / 5 : Nat)
  driftThreshold := (format.rate.toNat / 100 : Nat)
  sinceDriftCheck := 0
  started := false

section Samples

variable {σ : Type}

/-- The chunk a frame longer or shorter. -/
def nudge (s : AlsaSink) (depth : Int) (scratch : List σ) : List σ :=
  match driftAction depth s.targetDepth s.driftThreshold with
  | 1 =>
    if s.channels ≤ scratch.length then scratch ++ scratch.drop (scratch.length - s.channels)
    else scratch
  | -1 =>
    if s.channels ≤ scratch.length then scratch.take (scratch.length - s.channels) else scratch
  | _ => scratch

/-- The queue is looked at on every fiftieth call. -/
def driftCorrect (s : AlsaSink) (delay : Option Int) (scratch : List σ) : AlsaSink × List σ :=
  let since := s.sinceDriftCheck + 1
  if since < 50 then ({ s with sinceDriftCheck := since }, scratch)
  else
    ({ s with sinceDriftCheck := 0 },
      match delay with
      | none => scratch
      | some depth => s.nudge depth scratch)

/-- The chunk handed to the device for this scratch buffer. The first one after the device was
opened or flushed is the prebuffer, and is left as it is. -/
def adjust (s : AlsaSink) (delay : Option Int) (scratch : List σ) : AlsaSink × List σ :=
  if s.started then s.driftCorrect delay scratch else ({ s with started := true }, scratch)

end Samples

/-- The state after a write, the chunk and what the device took of it. Audio for a device that
failed to open is discarded. -/
def write {F : Type} (fl : Floats F) (s : AlsaSink) (gain : F) (device : Device)
    (pcm : List Player.Sample) : Option (AlsaSink × List Player.Sample × List Player.Sample) :=
  if s.opened then
    let (s, chunk) := s.adjust device.delay (applyGain fl pcm gain)
    (AlsaOutput.write s.channels device chunk).map (s, chunk, ·)
  else some (s, [], [])

/-- The device is reset: what it has queued is dropped. -/
def flush (s : AlsaSink) : AlsaSink := { s with started := false, sinceDriftCheck := 0 }

end AlsaSink

/-! ## The receiver program -/

/-- The volume outlasts the streams: it is shared by every sink the factory opens. -/
structure Host (F : Type) where
  sink : AlsaSink
  gain : F

inductive Use where
  | volume (db : BitVec 32)
  | stream (format : Format)
  | write (device : Device) (pcm : List Player.Sample)
  | flush

/-- The chunk of a write and what the device took of it; nothing for the other uses. -/
structure Fed where
  chunk : List Player.Sample
  took : List Player.Sample
  deriving DecidableEq

section Run

variable {F : Type} (fl : Floats F)

def Host.step (h : Host F) : Use → Option (Host F × Option Fed)
  | .volume db => some ({ h with gain := clamp fl (volumeToGain fl (fl.ofBits db)) }, none)
  | .stream format => some ({ h with sink := .openDevice format }, none)
  | .write device pcm =>
    (h.sink.write fl h.gain device pcm).map fun (sink, chunk, took) =>
      ({ h with sink := sink }, some ⟨chunk, took⟩)
  | .flush => some ({ h with sink := h.sink.flush }, none)

def Host.run : Host F → List Use → Option (Host F × List (Option Fed))
  | h, [] => some (h, [])
  | h, use :: uses => do
    let (h, fed) ← h.step fl use
    let (h, feds) ← h.run uses
    pure (h, fed :: feds)

end Run

end OpenAirplay.Alsa
