import OpenAirplay.Sdp

/-!
# The playback thread's data

Commands of the audio task, the prebuffer, and the transition from prebuffering to
steady playback. The ALAC decoder is a third-party crate; `Decoder` stands for it.
-/

namespace OpenAirplay.Player

set_option autoImplicit false

abbrev Sample := Int16

inductive Command where
  | frame (ts : U32) (packet : Bytes)
  | silence (ts : U32)
  | flush
  | stop
  deriving DecidableEq

structure Decoder where
  channels : Nat
  decode : Bytes → Option (List Sample)

/-- About 200 ms of audio, in packets. -/
def prebufferPackets (config : AlacConfig) : Nat :=
  let frames := max config.framesPerPacket.toNat 1
  max (config.sampleRate.toNat / 5 / frames) 1

section Playout

/- The samples are never looked at. -/
variable {σ : Type}

structure Prebuffer (σ : Type) where
  thresholdPackets : Nat
  packets : Nat
  buffer : List σ
  released : Bool

namespace Prebuffer

def new (thresholdPackets : Nat) : Prebuffer σ := ⟨thresholdPackets, 0, [], false⟩

/-- The samples to write now, if the threshold is reached. -/
def push (pb : Prebuffer σ) (pcm : List σ) : Option (List σ) × Prebuffer σ :=
  if pb.released then (some pcm, pb)
  else
    let buffer := pb.buffer ++ pcm
    let packets := pb.packets + 1
    if pb.thresholdPackets ≤ packets then
      (some buffer, { pb with packets := packets, buffer := [], released := true })
    else (none, { pb with packets := packets, buffer := buffer })

def reset (pb : Prebuffer σ) : Prebuffer σ :=
  { pb with packets := 0, buffer := [], released := false }

end Prebuffer

/-- What the thread does outside its own state: hold the first chunk until its start
instant, call the sink, and report the position of the audio at `ts`. -/
inductive Action (σ : Type) where
  | awaitStart (firstTs : Option U32)
  | write (chunk : List σ)
  | flush
  | played (ts : U32)
  deriving DecidableEq

structure Playout (σ : Type) where
  prebuffer : Prebuffer σ
  started : Bool
  firstTs : Option U32

namespace Playout

def new (prebufferPackets : Nat) : Playout σ := ⟨.new prebufferPackets, false, none⟩

def feed (p : Playout σ) (ts : U32) (pcm : List σ) : List (Action σ) × Playout σ :=
  let firstTs := if p.started then p.firstTs else some (p.firstTs.getD ts)
  match p.prebuffer.push pcm with
  | (none, prebuffer) => ([], { p with prebuffer := prebuffer, firstTs := firstTs })
  | (some chunk, prebuffer) =>
    if p.started then ([.write chunk], { p with prebuffer := prebuffer, firstTs := firstTs })
    else
      ([.awaitStart firstTs, .write chunk],
        { prebuffer := prebuffer, started := true, firstTs := firstTs })

def reset (p : Playout σ) : Playout σ :=
  { prebuffer := p.prebuffer.reset, started := false, firstTs := none }

end Playout

end Playout

end OpenAirplay.Player
