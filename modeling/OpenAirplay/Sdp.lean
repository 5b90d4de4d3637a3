import OpenAirplay.Text

/-!
# The SDP body of an ANNOUNCE

Just the attributes the receiver reads, as raw text; decoding them is the session's job.
-/

namespace OpenAirplay

open Text

set_option autoImplicit false

structure Sdp where
  rtpmap : Option String := none
  fmtp : Option String := none
  rsaaeskey : Option String := none
  aesiv : Option String := none
  minLatency : Option U32 := none
  deriving DecidableEq

def Sdp.attribute (sdp : Sdp) (name value : String) : Sdp :=
  match name with
  | "rtpmap" => { sdp with rtpmap := some value }
  | "fmtp" => { sdp with fmtp := some value }
  | "rsaaeskey" => { sdp with rsaaeskey := some value }
  | "aesiv" => { sdp with aesiv := some value }
  | "min-latency" => { sdp with minLatency := parseU32 value }
  | _ => sdp

def Sdp.line (sdp : Sdp) (line : String) : Sdp :=
  match stripPrefix line "a=" with
  | none => sdp
  | some attr =>
    match splitOnce attr ':' with
    | none => sdp
    | some (name, value) => sdp.attribute name (trim value)

def Sdp.parse (body : String) : Sdp := (lines body).foldl Sdp.line {}

/-- The ALAC configuration of `a=fmtp`: twelve integers, of which four have a name. -/
structure AlacConfig where
  framesPerPacket : U32
  bitDepth : BitVec 8
  channels : BitVec 8
  sampleRate : U32
  raw : Vector U32 12
  deriving DecidableEq

/-- Tokens after the twelfth are never looked at. -/
def AlacConfig.parse (fmtp : String) : Option AlacConfig :=
  match ((splitWhitespace fmtp).take 12).mapM parseU32 with
  | none => none
  | some toks =>
    if h : toks.toArray.size = 12 then
      let raw : Vector U32 12 := ⟨toks.toArray, h⟩
      some
        { framesPerPacket := raw[1]
          bitDepth := raw[3].setWidth 8
          channels := raw[7].setWidth 8
          sampleRate := raw[11]
          raw := raw }
    else none

example : (AlacConfig.parse "96 352 0 16 40 10 14 2 255 0 0 44100").map
    (fun c => (c.framesPerPacket, c.bitDepth, c.channels, c.sampleRate)) =
      some (352, 16, 2, 44100) := by decide

end OpenAirplay
