import OpenAirplay.Screen

/-!
# What a screen shows after a reconnect

A new connection leaves what came over the last one. This module says when everything shown
of a track comes from the connection that is up.
-/

namespace OpenAirplay.Tui

open Register Dashboard Client

set_option autoImplicit false

/-- What is drawn of a track, next to the name of the receiver. -/
structure Shown where
  session : Option Session
  title : Option String
  artist : Option String
  album : Option String
  volumeDb : Option (BitVec 32)
  position : Option (Duration × Duration)

def NowPlaying.shown (n : NowPlaying) : Shown :=
  ⟨n.session, n.title, n.artist, n.album, n.volumeDb, n.position⟩

/-- The lines of a track depend on nothing else. -/
theorem lines_congr (floats : Floats) {s t : Screen} (hs : s.connection = .connected)
    (ht : t.connection = .connected) (hname : s.name = t.name)
    (hshown : s.shown = t.shown) (width : U16) : s.lines floats width = t.lines floats width := by
  obtain ⟨hsession, htitle, hartist, halbum, hvolume, hposition⟩ := Shown.mk.inj hshown
  have hplaying : s.playing = t.playing := congrArg Option.isSome hsession
  have hstatus : s.status floats = t.status floats := by
    simp only [NowPlaying.status, hname, hsession, hvolume]
  simp only [Screen.lines, hs, ht, hplaying, hstatus, htitle, hartist, halbum, hposition, hname]

/-! ## Which messages came when -/

def message? : Update → Option Message
  | .message m => some m
  | .connected => none
  | .disconnected => none

/-- The messages before the latest connection. -/
def before (us : List Update) : List Message :=
  (us.reverse.dropWhile (· ≠ .connected)).reverse.filterMap message?

/-- The messages since then. -/
def since (us : List Update) : List Message :=
  (us.reverse.takeWhile (· ≠ .connected)).reverse.filterMap message?

theorem before_append_since (us : List Update) :
    before us ++ since us = us.filterMap message? := by
  rw [before, since, ← List.filterMap_append, ← List.reverse_append,
    List.takeWhile_append_dropWhile, List.reverse_reverse]

section Run

variable (decode : String → Option Bytes)

theorem run_toNowPlaying (s : Screen) (us : List Update) :
    (s.run decode us).toNowPlaying = s.toNowPlaying.run decode (us.filterMap message?) := by
  induction us generalizing s with
  | nil => rfl
  | cons u us ih =>
    have hfirst : s.run decode (u :: us) = (s.apply decode u).run decode us := rfl
    rw [hfirst, ih]
    cases u <;> rfl

/-! ## The registers of what is shown -/

def shownSession? (m : Message) : Option (Option Session) :=
  m.session?.map (Option.map Session.ofInfo)

def shownPosition? (m : Message) : Option (Option (Duration × Duration)) :=
  (progress? m).map fun progress => progress.bind Progress.position

/-- No part that is shown is older than the messages `post`. -/
structure Forgotten (pre post : List Message) : Prop where
  session : ¬Outlasts shownSession? pre post
  title : ¬Outlasts (track? Track.title) pre post
  artist : ¬Outlasts (track? Track.artist) pre post
  album : ¬Outlasts (track? Track.album) pre post
  volumeDb : ¬Outlasts volumeDb? pre post
  position : ¬Outlasts shownPosition? pre post

theorem shown_run (ms : List Message) :
    (blank.run decode ms).shown =
      { session := after shownSession? none ms
        title := after (track? Track.title) none ms
        artist := after (track? Track.artist) none ms
        album := after (track? Track.album) none ms
        volumeDb := after volumeDb? none ms
        position := after shownPosition? none ms } := by
  have hposition : after shownPosition? none ms =
      (after progress? none ms).bind Progress.position :=
    after_map (fun progress => progress.bind Progress.position) (v := none) fun _ _ => rfl
  rw [run_eq, hposition]
  rfl

theorem shown_eq_iff (pre post : List Message) :
    (blank.run decode (pre ++ post)).shown = (blank.run decode post).shown ↔
      Forgotten pre post := by
  simp only [shown_run, Shown.mk.injEq, after_forget_iff]
  constructor
  · rintro ⟨hsession, htitle, hartist, halbum, hvolume, hposition⟩
    exact ⟨hsession, htitle, hartist, halbum, hvolume, hposition⟩
  · rintro ⟨hsession, htitle, hartist, halbum, hvolume, hposition⟩
    exact ⟨hsession, htitle, hartist, halbum, hvolume, hposition⟩

/-- Whenever a run shows a track, it shows what a screen does that has heard nothing but the
messages since the connection was made. -/
def Live (endpoint : String) (images : Images.Protocol) (updates : List Update) : Prop :=
  ∀ seen, seen <+: updates →
    let s := (Screen.new endpoint images).run decode seen
    s.connection = .connected → s.playing → s.shown = (blank.run decode (since seen)).shown

/-- A run is live exactly when no part of a track it shows stands from before the connection
with nothing said of it since. -/
theorem live_iff (endpoint : String) (images : Images.Protocol) (updates : List Update) :
    Live decode endpoint images updates ↔
      ∀ seen, seen <+: updates →
        let s := (Screen.new endpoint images).run decode seen
        s.connection = .connected → s.playing → Forgotten (before seen) (since seen) := by
  have hseen : ∀ seen, ((Screen.new endpoint images).run decode seen).shown =
      (blank.run decode (before seen ++ since seen)).shown := by
    intro seen
    rw [before_append_since, run_toNowPlaying]
    rfl
  constructor
  · intro hlive seen hprefix s hconnected hplaying
    have hshown := hlive seen hprefix hconnected hplaying
    rw [hseen] at hshown
    exact (shown_eq_iff decode _ _).mp hshown
  · intro hforgotten seen hprefix s hconnected hplaying
    rw [hseen]
    exact (shown_eq_iff decode _ _).mpr (hforgotten seen hprefix hconnected hplaying)

/-- The lines of a live run are those of a screen of the same name that has heard nothing
else. -/
theorem Live.lines_eq {endpoint : String} {images : Images.Protocol} {updates seen : List Update}
    (h : Live decode endpoint images updates) (hseen : seen <+: updates) (floats : Floats)
    (width : U16) :
    let s := (Screen.new endpoint images).run decode seen
    let fresh := { blank.run decode (since seen) with name := s.name }
    s.connection = .connected → s.playing →
      s.lines floats width = Screen.lines floats ⟨fresh, endpoint, images, .connected⟩ width := by
  intro s fresh hconnected hplaying
  exact lines_congr (t := ⟨fresh, endpoint, images, .connected⟩) floats hconnected rfl rfl
    (h seen hseen hconnected hplaying) width

end Run

/-- Once the snapshot is there, nothing older is left. -/
theorem forgotten_of_snapshot {post : List Message} {s : Snapshot} (h : .snapshot s ∈ post)
    (pre : List Message) : Forgotten pre post := by
  have hwritten : ∀ {W : Type} {write : Message → Option (Option W)},
      write (.snapshot s) ≠ none → ¬Outlasts write pre post := by
    rintro W write hne ⟨a, m, b, w, _, _, hsilent⟩
    exact hne (hsilent _ (List.mem_append_right _ h))
  refine ⟨hwritten ?_, hwritten ?_, hwritten ?_, hwritten ?_, hwritten ?_, hwritten ?_⟩ <;>
    exact Option.some_ne_none _

def sonataSnapshot : Snapshot :=
  { playingSnapshot with track := some ⟨some "Sonata No. 1", none, none⟩ }

def reconnected : List Update :=
  [.connected, .message (.snapshot sonataSnapshot), .disconnected, .connected]

/-- A receiver that is back: until its snapshot comes the old track is on the screen as if it
were live. -/
theorem reconnected_shows_old_track :
    ((Screen.new "ws://host:7392" .none).run (fun _ => none) reconnected).lines
          ⟨fun _ => "-12.5", fun _ _ _ => 0⟩ 60 =
        [[(.bold, "Sonata No. 1")], emptyLine,
          [(.dim, "Living Room · 192.168.1.2 · 44100 Hz 2ch")]] ∧
      ¬∀ (decode : String → Option Bytes) (endpoint : String) (images : Images.Protocol)
        (updates : List Update), Live decode endpoint images updates := by
  refine ⟨rfl, ?_⟩
  intro hall
  have hlive := hall (fun _ => none) "ws://host:7392" .none reconnected reconnected
    (List.prefix_refl _) rfl rfl
  exact absurd (congrArg Shown.session hlive) (Option.some_ne_none _)

end OpenAirplay.Tui
