import Mathlib.Data.Rat.Defs
import OpenAirplay.Wire

/-!
# Session events delivered to the host

Durations are exact, in seconds; a volume is the bits of its `f32`.
-/

namespace OpenAirplay

set_option autoImplicit false

abbrev Duration := ℚ

inductive Event where
  | sessionStarted (rate : U32) (channels : BitVec 8) (peer : IpAddr)
  | volume (db : BitVec 32)
  | metadata (title artist album : Option String)
  | artwork (contentType : String) (data : Bytes)
  | progress (elapsed duration : Duration)
  | flushed
  | sessionEnded
  deriving DecidableEq

structure Track where
  start : U32
  endTs : U32
  deriving DecidableEq

def framesToDuration (frames rate : U32) : Duration :=
  if rate = 0 then 0 else (frames.toNat : ℚ) / rate.toNat

end OpenAirplay
