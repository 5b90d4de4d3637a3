import OpenAirplay.DashboardProtocol
import OpenAirplay.Events

/-!
# The display of a dashboard

What one screen holds, folded from the messages it gets. A screen that joins late starts
from the snapshot at that point; this module says when it shows the same as one that was
there from the start.
-/

namespace OpenAirplay.Tui

open Register Dashboard

set_option autoImplicit false

structure Session where
  rate : U32
  channels : BitVec 8
  peer : String
  deriving DecidableEq

structure Progress where
  elapsed : Duration
  duration : Duration
  deriving DecidableEq

structure Artwork where
  contentType : String
  data : Bytes
  deriving DecidableEq

structure NowPlaying where
  name : String
  session : Option Session
  title : Option String
  artist : Option String
  album : Option String
  volumeDb : Option (BitVec 32)
  progress : Option Progress
  artwork : Option Artwork

def fromMillis (ms : U64) : Duration := (ms.toNat : ℚ) / 1000

def Session.ofInfo (s : SessionInfo) : Session := ⟨s.rate, s.channels, s.peer⟩

def Progress.ofMillis (p : Dashboard.Progress) : Progress :=
  ⟨fromMillis p.elapsedMs, fromMillis p.durationMs⟩

/-- The default of a track. -/
def noTrack : Dashboard.Track := ⟨none, none, none⟩

section Apply

variable (decode : String → Option Bytes)

/-- Empty data is the sender's clear, undecodable data is treated the same way. -/
def decodeArtwork (contentType dataBase64 : String) : Option Artwork :=
  if dataBase64 = "" then none
  else (decode dataBase64).map fun data => ⟨contentType, data⟩

namespace NowPlaying

def applySnapshot (_ : NowPlaying) (s : Snapshot) : NowPlaying :=
  let track := s.track.getD noTrack
  { name := s.receiver.name
    session := s.session.map Session.ofInfo
    title := track.title
    artist := track.artist
    album := track.album
    volumeDb := s.volumeDb
    progress := s.progress.map Progress.ofMillis
    artwork := s.artwork.bind fun a => decodeArtwork decode a.contentType a.dataBase64 }

/-- A seek leaves the position where it was, the end of a session leaves the volume. -/
def applyMessage (n : NowPlaying) : Message → NowPlaying
  | .snapshot s => n.applySnapshot decode s
  | .sessionStarted rate channels peer => { n with session := some ⟨rate, channels, peer⟩ }
  | .metadata title artist album => { n with title := title, artist := artist, album := album }
  | .artwork contentType dataBase64 =>
    { n with artwork := decodeArtwork decode contentType dataBase64 }
  | .volume db => { n with volumeDb := some db }
  | .progress elapsedMs durationMs =>
    { n with progress := some ⟨fromMillis elapsedMs, fromMillis durationMs⟩ }
  | .flushed => n
  | .sessionEnded =>
    { n with
        session := none, title := none, artist := none, album := none, progress := none,
        artwork := none }

def run (n : NowPlaying) (ms : List Message) : NowPlaying := ms.foldl (applyMessage decode) n

end NowPlaying

end Apply

/-- All but the receiver's name is the same. -/
structure Alike (x y : NowPlaying) : Prop where
  session : x.session = y.session
  title : x.title = y.title
  artist : x.artist = y.artist
  album : x.album = y.album
  volumeDb : x.volumeDb = y.volumeDb
  progress : x.progress = y.progress
  artwork : x.artwork = y.artwork

/-! ## Its registers -/

/-- What the screen does with the position: unlike the snapshot it keeps it on a flush. -/
def progress? : Message → Option (Option Progress)
  | .flushed => none
  | m => m.progress?.map (Option.map Progress.ofMillis)

/-- What it does with the volume: unlike the snapshot it keeps it when a session ends. -/
def volumeDb? : Message → Option (Option (BitVec 32))
  | .sessionEnded => none
  | m => m.volumeDb?

def track? (field : Dashboard.Track → Option String) (m : Message) : Option (Option String) :=
  m.track?.map fun track => field (track.getD noTrack)

section Run

variable (decode : String → Option Bytes)

def artwork? (m : Message) : Option (Option Artwork) :=
  m.artwork?.map fun a => a.bind fun a => decodeArtwork decode a.contentType a.dataBase64

theorem artwork?_artwork (contentType dataBase64 : String) :
    artwork? decode (.artwork contentType dataBase64) =
      some (decodeArtwork decode contentType dataBase64) := by
  by_cases hempty : dataBase64 = ""
  · simp [artwork?, Message.artwork?, decodeArtwork, hempty]
  · simp [artwork?, Message.artwork?, hempty]

/-- Each field is what the last message to write it wrote. -/
theorem run_eq (n : NowPlaying) (ms : List Message) :
    n.run decode ms =
      { name := after (fun m => m.receiver?.map ReceiverInfo.name) n.name ms
        session := after (fun m => m.session?.map (Option.map Session.ofInfo)) n.session ms
        title := after (track? Track.title) n.title ms
        artist := after (track? Track.artist) n.artist ms
        album := after (track? Track.album) n.album ms
        volumeDb := after volumeDb? n.volumeDb ms
        progress := after progress? n.progress ms
        artwork := after (artwork? decode) n.artwork ms } := by
  induction ms generalizing n with
  | nil => rfl
  | cons m ms ih =>
    have hfirst : n.run decode (m :: ms) = (n.applyMessage decode m).run decode ms := rfl
    rw [hfirst, ih]
    cases m with
    | artwork contentType dataBase64 =>
      simp only [after_cons, artwork?_artwork]
      rfl
    | _ => rfl

end Run

/-! ## Joining late -/

/-- Whether a position is known after a message that says anything about it. -/
def position? : Message → Option Bool
  | .progress _ _ => some true
  | .sessionEnded => some false
  | .snapshot s => some s.progress.isSome
  | _ => none

/-- The same for the volume, which the end of a session does not touch. -/
def level? : Message → Option Bool
  | .volume _ => some true
  | .snapshot s => some s.volumeDb.isSome
  | _ => none

/-- Up to the split `m` came while a value was known, and nothing after it, before the split
or behind it, said anything more. -/
def Stands (known? : Message → Option Bool) (initially : Bool) (m : Message)
    (pre post : List Message) : Prop :=
  ∃ a b, pre = a ++ m :: b ∧ after known? initially a = true ∧ ∀ n ∈ b ++ post, known? n = none

theorem position?_eq (m : Message) : position? m = (progress? m).map Option.isSome := by
  cases m with
  | snapshot s => exact congrArg some (Option.isSome_map ..).symm
  | _ => rfl

theorem level?_eq (m : Message) : level? m = (volumeDb? m).map Option.isSome := by
  cases m <;> rfl

/-- A field the screen keeps and the snapshot clears on `m`. -/
theorem same_unless_stands {W : Type} {tui? snap? : Message → Option (Option W)}
    {known? : Message → Option Bool} {m : Message} (hm : tui? m = none ∧ snap? m = some none)
    (hsame : ∀ n, n ≠ m → snap? n = tui? n) (hknown : ∀ n, known? n = (tui? n).map Option.isSome)
    (v : Option W) (pre post : List Message) :
    after tui? (after tui? v pre) post = after tui? (after snap? v pre) post ↔
      ¬Stands known? v.isSome m pre post := by
  have hsilent : ∀ n, known? n = none ↔ tui? n = none := by
    intro n
    rw [hknown, Option.map_eq_none_iff]
  have hvalue : ∀ a, after known? v.isSome a = true ↔ after tui? v a ≠ none := by
    intro a
    rw [after_map Option.isSome fun n _ => hknown n, Option.isSome_iff_ne_none]
  have hextra : ∀ n, n = m → tui? n = none ∧ snap? n = some none := by
    rintro n rfl
    exact hm
  rw [after_eq_iff, after_eq_extra_iff hextra hsame, ← not_iff_not, not_or, not_not, not_not]
  constructor
  · rintro ⟨⟨a, e, b, rfl, rfl, hne, hb⟩, hpost⟩
    refine ⟨a, b, rfl, (hvalue a).mpr hne, ?_⟩
    intro n hn
    rcases List.mem_append.mp hn with hn | hn
    · exact (hsilent n).mpr (hb n hn)
    · rw [hsilent]
      by_contra hwrite
      exact hpost ⟨n, hn, hwrite⟩
  · rintro ⟨a, b, rfl, hne, hrest⟩
    refine ⟨⟨a, m, b, rfl, rfl, (hvalue a).mp hne, ?_⟩, ?_⟩
    · exact fun n hn => (hsilent n).mp (hrest n (List.mem_append_left _ hn))
    · rintro ⟨n, hn, hwrite⟩
      exact hwrite ((hsilent n).mp (hrest n (List.mem_append_right _ hn)))

theorem progress_same_iff (s : Snapshot) (pre post : List Message) :
    after progress? (s.progress.map Progress.ofMillis) (pre ++ post) =
        after progress? ((after Message.progress? s.progress pre).map Progress.ofMillis) post ↔
      ¬Stands position? s.progress.isSome .flushed pre post := by
  let snap? (m : Message) : Option (Option Progress) :=
    m.progress?.map (Option.map Progress.ofMillis)
  have hsnap : after snap? (s.progress.map Progress.ofMillis) pre =
      (after Message.progress? s.progress pre).map Progress.ofMillis :=
    after_map (Option.map Progress.ofMillis) fun _ _ => rfl
  have hsame : ∀ m, m ≠ .flushed → snap? m = progress? m := by
    intro m hm
    cases m <;> first | rfl | exact absurd rfl hm
  have h := same_unless_stands ⟨rfl, rfl⟩ hsame position?_eq (s.progress.map Progress.ofMillis)
    pre post
  rwa [hsnap, Option.isSome_map, ← after_append] at h

theorem volume_same_iff (s : Snapshot) (pre post : List Message) :
    after volumeDb? s.volumeDb (pre ++ post) =
        after volumeDb? (after Message.volumeDb? s.volumeDb pre) post ↔
      ¬Stands level? s.volumeDb.isSome .sessionEnded pre post := by
  have hsame : ∀ m, m ≠ .sessionEnded → m.volumeDb? = volumeDb? m := by
    intro m hm
    cases m <;> first | rfl | exact absurd rfl hm
  rw [after_append]
  exact same_unless_stands ⟨rfl, rfl⟩ hsame level?_eq s.volumeDb pre post

/-- A screen that joins at any point shows what one that was there from the start shows,
exactly when no flush stands there against a known position and no end of a session against
a known volume. -/
theorem joined_alike_iff (decode : String → Option Bytes) (x y : NowPlaying) (s : Snapshot)
    (pre post : List Message) :
    Alike ((x.applySnapshot decode s).run decode (pre ++ post))
        ((y.applySnapshot decode (s.fold pre)).run decode post) ↔
      ¬Stands position? s.progress.isSome .flushed pre post ∧
        ¬Stands level? s.volumeDb.isSome .sessionEnded pre post := by
  rw [run_eq, run_eq, Snapshot.fold_eq]
  have hprogress := progress_same_iff s pre post
  have hvolume := volume_same_iff s pre post
  constructor
  · intro halike
    exact ⟨hprogress.mp halike.progress, hvolume.mp halike.volumeDb⟩
  · rintro ⟨hflush, hend⟩
    refine ⟨?_, ?_, ?_, ?_, hvolume.mpr hend, hprogress.mpr hflush, ?_⟩
    · exact after_split (Option.map Session.ofInfo) (fun _ => rfl) s.session pre post
    · exact after_split (fun t => (t.getD noTrack).title) (fun _ => rfl) s.track pre post
    · exact after_split (fun t => (t.getD noTrack).artist) (fun _ => rfl) s.track pre post
    · exact after_split (fun t => (t.getD noTrack).album) (fun _ => rfl) s.track pre post
    · exact after_split
        (fun artwork => artwork.bind fun a => decodeArtwork decode a.contentType a.dataBase64)
        (fun _ => rfl) s.artwork pre post

def playingSnapshot : Snapshot where
  receiver := ⟨"Living Room", "0.2.0"⟩
  session := some ⟨44100, 2, "192.168.1.2"⟩
  track := none
  volumeDb := none
  progress := none
  artwork := none

def blank : NowPlaying := ⟨"", none, none, none, none, none, none, none⟩

/-- A pause comes as a flush: a screen that was there keeps the position, one that joins
during the pause has none. -/
theorem paused_screens_differ :
    ((blank.applySnapshot (fun _ => none) playingSnapshot).run (fun _ => none)
        [.progress 83000 247000, .flushed]).progress = some ⟨83, 247⟩ ∧
      (blank.applySnapshot (fun _ => none)
        (playingSnapshot.fold [.progress 83000 247000, .flushed])).progress = none ∧
      ¬∀ (x y : NowPlaying) (s : Snapshot) (pre post : List Message),
        Alike ((x.applySnapshot (fun _ => none) s).run (fun _ => none) (pre ++ post))
          ((y.applySnapshot (fun _ => none) (s.fold pre)).run (fun _ => none) post) := by
  have hstays : ((blank.applySnapshot (fun _ => none) playingSnapshot).run (fun _ => none)
      [.progress 83000 247000, .flushed]).progress = some ⟨83, 247⟩ := by decide +kernel
  refine ⟨hstays, rfl, ?_⟩
  intro h
  have hsame := (h blank blank playingSnapshot [.progress 83000 247000, .flushed] []).progress
  rw [List.append_nil, hstays] at hsame
  cases hsame

end OpenAirplay.Tui
