import OpenAirplay.Client
import OpenAirplay.Images
import OpenAirplay.NowPlaying

/-!
# The full screen of a dashboard

The connection with what came over it, and the lines of text drawn of both.
-/

namespace OpenAirplay.Tui

open Register Dashboard Client

set_option autoImplicit false

/-- Shown in place of the track when the socket is down. -/
inductive Connection where
  | connecting
  | connected
  | lost
  deriving DecidableEq

structure Screen extends NowPlaying where
  endpoint : String
  images : Images.Protocol
  connection : Connection

/-- Nothing heard yet. -/
def Screen.new (endpoint : String) (images : Images.Protocol) : Screen where
  toNowPlaying := blank
  endpoint := endpoint
  images := images
  connection := .connecting

section Apply

variable (decode : String → Option Bytes)

namespace Screen

def apply (s : Screen) : Update → Screen
  | .connected => { s with connection := .connected }
  | .disconnected => { s with connection := .lost }
  | .message m => { s with toNowPlaying := s.toNowPlaying.applyMessage decode m }

def run (s : Screen) (us : List Update) : Screen := us.foldl (apply decode) s

end Screen

end Apply

/-! ## The lines -/

inductive Style where
  | plain
  | bold
  | dim
  | played
  | remaining
  deriving DecidableEq

abbrev Line := List (Style × String)

def emptyLine : Line := [(.plain, "")]

/-- The floating-point parts: `{:.1}` of a volume, and how much of a bar is filled. -/
structure Floats where
  decibels : BitVec 32 → String
  filled : Duration → Duration → Nat → Nat

/-- A stream with no known end has no position to show. -/
def Progress.position (p : Progress) : Option (Duration × Duration) :=
  if p.duration = 0 then none else some (min p.elapsed p.duration, p.duration)

namespace NowPlaying

def playing (n : NowPlaying) : Bool := n.session.isSome

def position (n : NowPlaying) : Option (Duration × Duration) :=
  n.progress.bind Progress.position

def status (floats : Floats) (n : NowPlaying) : String :=
  let session := match n.session with
    | some session =>
      let rate := session.rate.toNat
      let channels := session.channels.toNat
      [session.peer, s!"{rate} Hz {channels}ch"]
    | none => []
  let volume := match n.volumeDb with
    | some db => [floats.decibels db ++ " dB"]
    | none => []
  " · ".intercalate (n.name :: (session ++ volume))

end NowPlaying

/-- Between 10 and 40 cells. -/
def barWidth (screen : U16) : Nat := max 10 (min (screen.toNat / 3) 40)

def progressBar (floats : Floats) (elapsed duration : Duration) (width : Nat) : Line :=
  let filled := floats.filled elapsed duration width
  [(.played, .ofList (List.replicate filled '━')),
    (.remaining, .ofList (List.replicate (width - filled) '─'))]

def twoDigits (n : Nat) : String := if n < 10 then s!"0{n}" else s!"{n}"

/-- `1:23`, or `1:02:03` once past an hour. -/
def clock (d : Duration) : String :=
  let secs := d.floor.toNat
  let h := secs / 3600
  let m := secs % 3600 / 60
  let s := secs % 60
  if 0 < h then s!"{h}:" ++ twoDigits m ++ ":" ++ twoDigits s
  else s!"{m}:" ++ twoDigits s

/-- The track, or why there is none. -/
def Screen.lines (floats : Floats) (s : Screen) (width : U16) : List Line :=
  match s.connection with
  | .lost => [[(.bold, s.endpoint)], emptyLine, [(.dim, "connection lost, retrying…")]]
  | .connecting => [[(.bold, s.endpoint)], emptyLine, [(.dim, "connecting…")]]
  | .connected =>
    if s.playing then
      let artist := (s.artist.map fun artist => [(Style.plain, artist)]).toList
      let album := (s.album.map fun album => [(Style.dim, album)]).toList
      let clocks := match s.position with
        | some (elapsed, duration) =>
          [emptyLine, progressBar floats elapsed duration (barWidth width),
            [(.dim, clock elapsed ++ " / " ++ clock duration)]]
        | none => []
      [(.bold, s.title.getD "Unknown track")] ::
        (artist ++ album ++ clocks ++ [emptyLine, [(.dim, s.status floats)]])
    else [[(.bold, s.name)], emptyLine, [(.dim, "waiting for a sender…")]]

end OpenAirplay.Tui
