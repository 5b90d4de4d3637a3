import OpenAirplay.Publisher
import OpenAirplay.Screen
import OpenAirplay.Shared.Base64

/-!
# From the events of a receiver to a screen

A screen that has caught up with its connection shows of every field what the last event to
say anything about it said, whatever connections came before and whatever it missed on this one.
-/

namespace OpenAirplay

open Register Dashboard Transitions

set_option autoImplicit false

/-! ## What events say -/

namespace Event

def session? : Event → Option (Option Tui.Session)
  | .sessionStarted rate channels peer => some (some ⟨rate, channels, displayAddr peer⟩)
  | .sessionEnded => some none
  | _ => none

/-- One field of the track. -/
def track? (field : Dashboard.Track → Option String) : Event → Option (Option String)
  | .metadata title artist album => some (field ⟨title, artist, album⟩)
  | .sessionEnded => some (field Tui.noTrack)
  | _ => none

def volumeDb? : Event → Option (Option (BitVec 32))
  | .volume db => some (some db)
  | .sessionEnded => some none
  | _ => none

def progress? : Event → Option (Option (Duration × Duration))
  | .progress elapsed duration => some (some (elapsed, duration))
  | .flushed | .sessionEnded => some none
  | _ => none

/-- Without data it is the sender's clear. -/
def artwork? : Event → Option (Option Tui.Artwork)
  | .artwork contentType data => some (if data = [] then none else some ⟨contentType, data⟩)
  | .sessionEnded => some none
  | _ => none

end Event

namespace Dashboard

/-- The bits of neither an infinity nor a NaN. -/
def isFinite (db : BitVec 32) : Bool := db.extractLsb' 23 8 ≠ 0xff#8

/-- What is read at the other end: a float that is not finite is written as null, which is no
volume in a snapshot and an error in a message of its own. -/
def Message.read : Message → Option Message
  | .volume db => if isFinite db then some (.volume db) else none
  | .snapshot s => some (.snapshot { s with volumeDb := s.volumeDb.filter isFinite })
  | m => some m

theorem read_volume (db : BitVec 32) :
    Message.read (.volume db) = if isFinite db then some (.volume db) else none := rfl

/-- What both ends rely on of base64. -/
structure Base64Codec (encode : Bytes → String) (decode : String → Option Bytes) : Prop where
  decode_encode : ∀ data, decode (encode data) = some data
  encode_nil : encode [] = ""

section Service

variable {encode : Bytes → String} {s s' : Service} {actions : List Action}

def published (actions : List Action) : List Event :=
  actions.filterMap fun
    | .apply event => some event
    | _ => none

/-- The snapshot is the receiver with all that was published. -/
theorem snapshot_published {name version : String}
    (hrun : Run (Step encode) (.new name version) actions s) :
    s.snapshot = (Service.new name version).snapshot.fold
      ((published actions).map (toMessage encode)) := by
  generalize hstart : Service.new name version = start at hrun
  clear hstart
  induction hrun with
  | nil _ => rfl
  | cons hfirst _ ih =>
    rw [ih]
    cases hfirst <;> rfl

/-- Once served, a client has been sent a snapshot. -/
theorem snapshot_received {name version : String}
    (hrun : Run (Step encode) (.new name version) actions s) (hphase : s.phase = .serving) :
    ∃ snapshot, .snapshot snapshot ∈ s.received := by
  have hstep : ∀ (s : Service) (action : Action) (s' : Service),
      (s.phase = .serving ∨ s.phase = .lagged → ∃ snapshot, .snapshot snapshot ∈ s.received) →
      True → Step encode s action s' →
        (s'.phase = .serving ∨ s'.phase = .lagged → ∃ snapshot, .snapshot snapshot ∈ s'.received) ∧
          True := by
    intro s action s' h _ hstep
    refine ⟨fun hserved => ?_, trivial⟩
    cases hstep with
    | apply hhalf => exact h hserved
    | send hhalf hkept => exact h hserved
    | subscribe hphase => rcases hserved with hserved | hserved <;> cases hserved
    | handshake hphase => rcases hserved with hserved | hserved <;> cases hserved
    | snapshot hphase => exact ⟨s.snapshot, by simp⟩
    | receive hphase hrecv =>
      obtain ⟨snapshot, hmem⟩ := h (.inl hphase)
      exact ⟨snapshot, List.mem_append_left _ hmem⟩
    | lag hphase hrecv => exact h (.inl hphase)
  have hstart : (Service.new name version).phase = .serving ∨
      (Service.new name version).phase = .lagged →
        ∃ snapshot, .snapshot snapshot ∈ (Service.new name version).received := by
    rintro (h | h) <;> cases h
  exact (hrun.invariant hstep hstart fun _ _ => trivial).1 (.inl hphase)

end Service

end Dashboard

namespace Tui

open Client

/-! ## What a screen makes of them -/

def toMillis (position : Duration × Duration) : Dashboard.Progress :=
  ⟨asMillis position.1, asMillis position.2⟩

/-- The events of the receiver of this name, on a screen. A screen keeps a position through a
flush and a volume beyond the end of a session, so these may be there without being said. -/
structure NowPlaying.Mirrors (receiver : String) (events : List Event) (n : NowPlaying) : Prop where
  name : n.name = receiver
  session : n.session = after Event.session? none events
  title : n.title = after (Event.track? Dashboard.Track.title) none events
  artist : n.artist = after (Event.track? Dashboard.Track.artist) none events
  album : n.album = after (Event.track? Dashboard.Track.album) none events
  artwork : n.artwork = after Event.artwork? none events
  volumeDb : ∀ db, after Event.volumeDb? none events = some db → isFinite db = true →
    n.volumeDb = some db
  progress : ∀ position, after Event.progress? none events = some position →
    n.progress = some (.ofMillis (toMillis position))

section Mirrors

variable {encode : Bytes → String} {decode : String → Option Bytes}

theorem encode_eq_empty_iff (h : Base64Codec encode decode) (data : Bytes) :
    encode data = "" ↔ data = [] := by
  constructor
  · intro hempty
    have hback := h.decode_encode data
    rw [hempty, ← h.encode_nil, h.decode_encode] at hback
    exact (Option.some.inj hback).symm
  · rintro rfl
    exact h.encode_nil

/-- What a screen shows for the artwork of a snapshot. -/
def shownArtwork (decode : String → Option Bytes) (artwork : Option Dashboard.Artwork) :
    Option Artwork := artwork.bind fun a => decodeArtwork decode a.contentType a.dataBase64

theorem artwork?_toMessage (h : Base64Codec encode decode) (event : Event) :
    event.artwork? = ((toMessage encode event).artwork?).map (shownArtwork decode) := by
  cases event with
  | artwork contentType data =>
    by_cases hdata : data = []
    · simp [Event.artwork?, toMessage, Message.artwork?, shownArtwork, hdata, h.encode_nil]
    · have hne := mt (encode_eq_empty_iff h data).mp hdata
      simp [Event.artwork?, toMessage, Message.artwork?, shownArtwork, decodeArtwork, hdata, hne,
        h.decode_encode]
  | _ => rfl

/-- A register that has nothing to do with the volume. -/
structure Unmoved {V : Type} (write : Message → Option V) : Prop where
  volume : ∀ db, write (.volume db) = none
  snapshot : ∀ (s : Snapshot) db, write (.snapshot { s with volumeDb := db }) = write (.snapshot s)

theorem Unmoved.read {V : Type} {write : Message → Option V} (h : Unmoved write) {m m' : Message}
    (hread : m.read = some m') : write m' = write m := by
  cases m with
  | volume db =>
    rw [read_volume] at hread
    split at hread
    · rw [Option.some.inj hread]
    · cases hread
  | snapshot s =>
    cases hread
    exact h.snapshot s _
  | _ =>
    cases hread
    rfl

theorem Unmoved.exists_read {V : Type} {write : Message → Option V} (h : Unmoved write)
    {m : Message} {x : V} (hwrite : write m = some x) :
    ∃ m', m.read = some m' ∧ write m' = some x := by
  cases hread : m.read with
  | some m' => exact ⟨m', rfl, (h.read hread).trans hwrite⟩
  | none =>
    cases m with
    | volume db =>
      rw [h.volume] at hwrite
      cases hwrite
    | _ => cases hread

/-- A screen's view of such a register comes through. -/
theorem Unmoved.after_read {V W : Type} {write : Message → Option V} {write' : Message → Option W}
    (h : Unmoved write) (f : V → Option W) (hsilent : ∀ m, write m = none → write' m = none)
    (hview : ∀ m x w, write m = some x → f x = some w → write' m = some w) {ms : List Message}
    (hwritten : ∃ m ∈ ms, write m ≠ none) (v : V) (v' : W) {w : W}
    (hlast : f (after write v ms) = some w) :
    after write' v' (ms.filterMap Message.read) = w := by
  apply after_through _ _ hwritten v' hlast
  · intro m m' hm hread
    exact hsilent m' ((h.read hread).trans hm)
  · intro m x w hm hx
    obtain ⟨m', hread, hm'⟩ := h.exists_read hm
    exact ⟨m', hread, hview m' x w hm' hx⟩

theorem Unmoved.after_read_map {V W : Type} {write : Message → Option V} (h : Unmoved write)
    (f : V → W) {ms : List Message} (hwritten : ∃ m ∈ ms, write m ≠ none) (v : V) (v' : W) :
    after (fun m => (write m).map f) v' (ms.filterMap Message.read) = f (after write v ms) := by
  apply h.after_read (fun x => some (f x)) _ _ hwritten v v' rfl
  · intro m hm
    rw [hm, Option.map_none]
  · intro m x w hm hx
    rw [hm, Option.map_some, hx]

theorem volumeDb_after_read {ms : List Message} (hwritten : ∃ m ∈ ms, m.volumeDb? ≠ none)
    (v v' : Option (BitVec 32)) {db : BitVec 32}
    (hlast : after Message.volumeDb? v ms = some db) (hfinite : isFinite db = true) :
    after volumeDb? v' (ms.filterMap Message.read) = some db := by
  let view (v : Option (BitVec 32)) : Option (Option (BitVec 32)) := (v.filter isFinite).map some
  have hview : view (after Message.volumeDb? v ms) = some (some db) := by
    simp [view, hlast, hfinite]
  apply after_through _ _ hwritten v' hview
  · intro m m' hm hread
    cases m with
    | volume db => cases hm
    | snapshot s => cases hm
    | _ =>
      cases hread
      first | exact hm | rfl
  · intro m x w hm hx
    obtain ⟨db, rfl, hdb, rfl⟩ : ∃ db, x = some db ∧ isFinite db = true ∧ w = some db := by
      cases x with
      | none => cases hx
      | some db =>
        by_cases hdb : isFinite db = true
        · simp only [view, Option.filter_some, hdb, if_true, Option.map_some] at hx
          exact ⟨db, rfl, hdb, (Option.some.inj hx).symm⟩
        · simp [view, hdb] at hx
    cases m with
    | volume db' =>
      obtain rfl : db' = db := Option.some.inj (Option.some.inj hm)
      refine ⟨.volume db', ?_, rfl⟩
      rw [read_volume, if_pos hdb]
    | snapshot s =>
      have hs : s.volumeDb = some db := Option.some.inj hm
      refine ⟨.snapshot { s with volumeDb := s.volumeDb.filter isFinite }, rfl, ?_⟩
      change some (s.volumeDb.filter isFinite) = some (some db)
      rw [hs, Option.filter_some, if_pos hdb]
    | sessionEnded => cases hm
    | _ => cases hm

variable (n : NowPlaying) {name version : String} {ms : List Message} {events : List Event}

/-- What came over a connection is as good as the events themselves, if it comes to the same
snapshot and there is a snapshot in it. -/
theorem mirrors_of_fold (h : Base64Codec encode decode)
    (hfold : Snapshot.default.fold ms =
      (Service.new name version).snapshot.fold (events.map (toMessage encode)))
    (hsnapshot : ∃ snapshot, .snapshot snapshot ∈ ms) :
    (n.run decode (ms.filterMap Message.read)).Mirrors name events := by
  rw [Snapshot.fold_eq, Snapshot.fold_eq, Snapshot.mk.injEq] at hfold
  simp only [after_comap] at hfold
  obtain ⟨hreceiver, hsession, htrack, hvolume, hprogress, hartwork⟩ := hfold
  have hwritten : ∀ {V : Type} (write : Message → Option V),
      (∀ s, write (.snapshot s) ≠ none) → ∃ m ∈ ms, write m ≠ none := by
    intro V write hwrite
    obtain ⟨snapshot, hmem⟩ := hsnapshot
    exact ⟨_, hmem, hwrite snapshot⟩
  have htracks : ∀ field : Dashboard.Track → Option String, field noTrack = none → ∀ v,
      after (track? field) v (ms.filterMap Message.read) =
        after (Event.track? field) none events := by
    intro field hnone v
    have hun : Unmoved Message.track? := ⟨fun _ => rfl, fun _ _ => rfl⟩
    have hread := hun.after_read_map (fun track => field (track.getD noTrack))
      (hwritten _ fun _ => Option.some_ne_none _) Snapshot.default.track v
    have hevent : ∀ event ∈ events, event.track? field =
        ((toMessage encode event).track?).map fun track => field (track.getD noTrack) := by
      intro event _
      cases event <;> rfl
    have hmap := after_map (v := none) (fun track => field (track.getD noTrack)) hevent
    rw [Option.getD_none, hnone] at hmap
    rw [hmap]
    exact hread.trans (congrArg (fun track => field (track.getD noTrack)) htrack)
  rw [run_eq]
  constructor
  · have hun : Unmoved Message.receiver? := ⟨fun _ => rfl, fun _ _ => rfl⟩
    have hread := hun.after_read_map ReceiverInfo.name (hwritten _ fun _ => Option.some_ne_none _)
      Snapshot.default.receiver n.name
    refine hread.trans ?_
    rw [hreceiver, after_of_silent]
    · rfl
    · intro event _
      cases event <;> rfl
  · have hun : Unmoved Message.session? := ⟨fun _ => rfl, fun _ _ => rfl⟩
    have hread := hun.after_read_map (Option.map Session.ofInfo)
      (hwritten _ fun _ => Option.some_ne_none _) Snapshot.default.session n.session
    refine hread.trans ?_
    rw [hsession]
    have hevent : ∀ event ∈ events, event.session? =
        ((toMessage encode event).session?).map (Option.map Session.ofInfo) := by
      intro event _
      cases event <;> rfl
    exact (after_map (v := none) (Option.map Session.ofInfo) hevent).symm
  · exact htracks _ rfl _
  · exact htracks _ rfl _
  · exact htracks _ rfl _
  · have hun : Unmoved Message.artwork? := ⟨fun _ => rfl, fun _ _ => rfl⟩
    have hread := hun.after_read_map (shownArtwork decode)
      (hwritten _ fun _ => Option.some_ne_none _) Snapshot.default.artwork n.artwork
    refine hread.trans ?_
    rw [hartwork]
    exact (after_map (v := none) (shownArtwork decode) fun event _ =>
      artwork?_toMessage h event).symm
  · intro db hlast hfinite
    have hevent : after Event.volumeDb? none events =
        after (fun event => (toMessage encode event).volumeDb?) none events := by
      congr 1
      funext event
      cases event <;> rfl
    refine volumeDb_after_read (hwritten _ fun _ => Option.some_ne_none _) Snapshot.default.volumeDb
      n.volumeDb ?_ hfinite
    rw [hvolume, ← hlast, hevent]
    rfl
  · intro position hlast
    have hun : Unmoved Message.progress? := ⟨fun _ => rfl, fun _ _ => rfl⟩
    have hevent : ∀ event ∈ events, (toMessage encode event).progress? =
        event.progress?.map (Option.map toMillis) := by
      intro event _
      cases event <;> rfl
    have hsent :
        after Message.progress? Snapshot.default.progress ms = some (toMillis position) := by
      rw [hprogress]
      refine (after_map (v := none) (Option.map toMillis) hevent).trans ?_
      rw [hlast, Option.map_some]
    apply hun.after_read (Option.map fun p => some (Progress.ofMillis p)) _ _
      (hwritten _ fun _ => Option.some_ne_none _) _ _ (by rw [hsent]; rfl)
    · intro m hm
      cases m with
      | flushed => cases hm
      | _ =>
        simp only [progress?, hm]
        rfl
    · intro m x w hm hx
      obtain ⟨p, rfl, rfl⟩ := Option.map_eq_some_iff.mp hx
      cases m with
      | flushed => cases hm
      | _ =>
        simp only [progress?, hm]
        rfl

end Mirrors

/-! ## A connection that is up -/

def texts (frames : List (Option WsMessage)) : List String :=
  frames.filterMap fun
    | some (.text text) => some text
    | _ => none

/-- The connection is still open, and its texts are these messages to whoever reads them. -/
structure Carries (parse : String → Option Message) (frames : List (Option WsMessage))
    (ms : List Message) : Prop where
  opened : ∀ frame ∈ frames, frame ≠ none ∧ frame ≠ some .close
  read : List.Forall₂ (fun text m => parse text = m.read) (texts frames) ms

theorem forwarded_of_opened (parse : String → Option Message) {frames : List (Option WsMessage)}
    (h : ∀ frame ∈ frames, frame ≠ none ∧ frame ≠ some .close) :
    forwarded parse frames = ((texts frames).filterMap parse).map .message := by
  induction frames with
  | nil => rfl
  | cons frame frames ih =>
    have hrest := ih fun frame hframe => h frame (List.mem_cons_of_mem _ hframe)
    obtain ⟨hok, hopen⟩ := h frame List.mem_cons_self
    match frame with
    | none => exact absurd rfl hok
    | some .close => exact absurd rfl hopen
    | some .other => exact hrest
    | some (.text text) =>
      have htexts : texts (some (.text text) :: frames) = text :: texts frames := rfl
      rw [forwarded, hrest, htexts]
      cases hparse : parse text with
      | none => rw [List.filterMap_cons_none hparse]; rfl
      | some m => rw [List.filterMap_cons_some hparse]; rfl

theorem Carries.forwarded {parse : String → Option Message} {frames : List (Option WsMessage)}
    {ms : List Message} (h : Carries parse frames ms) :
    forwarded parse frames = (ms.filterMap Message.read).map .message := by
  rw [forwarded_of_opened parse h.opened]
  congr 1
  have hall := h.read
  clear h
  generalize texts frames = ts at hall ⊢
  induction hall with
  | nil => rfl
  | cons hread _ ih => rw [List.filterMap_cons, List.filterMap_cons, hread, ih]

theorem run_messages (decode : String → Option Bytes) (s : Screen) (ms : List Message) :
    s.run decode (ms.map .message) =
      { s with toNowPlaying := s.toNowPlaying.run decode ms } := by
  induction ms generalizing s with
  | nil => rfl
  | cons m ms ih => exact ih (s.apply decode (.message m))

theorem run_carried {parse : String → Option Message} {frames : List (Option WsMessage)}
    {ms : List Message} (h : Carries parse frames ms) (decode : String → Option Bytes)
    (screen : Screen) :
    screen.run decode (.connected :: forwarded parse frames) =
      { screen with
        connection := .connected
        toNowPlaying := screen.toNowPlaying.run decode (ms.filterMap Message.read) } := by
  rw [h.forwarded]
  exact run_messages decode (screen.apply decode .connected) _

/-- A client that has caught up received what comes to all that was published. -/
theorem fold_received {encode : Bytes → String} {name version : String} {actions : List Action}
    {s : Service} (hrun : Run (Step encode) (.new name version) actions s)
    (hphase : s.phase = .serving)
    (hend : Broadcast.recv channelCapacity s.sent s.cursor = none) (hhalf : s.half = none) :
    Snapshot.default.fold s.received =
      (Service.new name version).snapshot.fold ((published actions).map (toMessage encode)) := by
  have hserved := (sound_run hrun).served hphase
  rwa [Service.pending, Broadcast.recv_none hend, hhalf, snapshot_published hrun] at hserved

/-- Whatever was on a screen when it got its connection, and however often the receiver had to
start over with a snapshot: once there is nothing more to come, it shows the events of the
receiver. -/
theorem caught_up_mirrors (encode : Bytes → String) (decode : String → Option Bytes)
    (h : Base64Codec encode decode) (parse : String → Option Message) (name version : String)
    (actions : List Action) (s : Service)
    (hrun : Run (Step encode) (.new name version) actions s) (hphase : s.phase = .serving)
    (hend : Broadcast.recv channelCapacity s.sent s.cursor = none) (hhalf : s.half = none)
    (frames : List (Option WsMessage)) (hframes : Carries parse frames s.received)
    (screen : Screen) :
    (screen.run decode (.connected :: forwarded parse frames)).connection = .connected ∧
      (screen.run decode (.connected :: forwarded parse frames)).Mirrors name
        (published actions) := by
  rw [run_carried hframes decode screen]
  exact ⟨rfl, mirrors_of_fold _ h (fold_received hrun hphase hend hhalf)
    (snapshot_received hrun hphase)⟩

/-! ## A track between the subscription and the snapshot -/

def base64Text (data : Bytes) : String := Base64.text (Base64.encode data)

def base64Data (text : String) : Option Bytes := Base64.decode (Base64.symbols text)

theorem base64_codec : Base64Codec base64Text base64Data where
  decode_encode data := by
    rw [base64Data, base64Text, Base64.symbols_text]
    exact Base64.decode_encode data
  encode_nil := rfl

def sonata : Dashboard.Track := ⟨some "Sonata No. 1", none, none⟩

def firstSnapshot : Snapshot := ⟨⟨"Living Room", "1"⟩, none, some sonata, none, none, none⟩

def sonataService : Service where
  snapshot := firstSnapshot
  half := none
  sent := [.metadata (some "Sonata No. 1") none none]
  phase := .serving
  cursor := 1
  received := [.snapshot firstSnapshot, .metadata (some "Sonata No. 1") none none]

def sonataActions : List Action :=
  [.subscribe, .apply (.metadata (some "Sonata No. 1") none none), .handshake, .snapshot,
    .send true, .receive]

theorem sonata_run :
    Run (Step base64Text) (.new "Living Room" "1") sonataActions sonataService := by
  apply Run.cons (.subscribe rfl)
  apply Run.cons (.apply rfl)
  apply Run.cons (.handshake rfl)
  apply Run.cons (.snapshot (.inl rfl))
  apply Run.cons (.send (m := .metadata (some "Sonata No. 1") none none) rfl (fun _ => rfl))
  exact Run.single (.receive (m := .metadata (some "Sonata No. 1") none none) rfl rfl)

def metadataText : String :=
  "\x7b\"type\":\"metadata\",\"title\":\"Sonata No. 1\",\"artist\":null,\"album\":null\x7d"

def snapshotText : String :=
  "\x7b\"type\":\"snapshot\"," ++
    "\"receiver\":\x7b\"name\":\"Living Room\",\"version\":\"1\"\x7d,\"session\":null," ++
    "\"track\":\x7b\"title\":\"Sonata No. 1\",\"artist\":null,\"album\":null\x7d," ++
    "\"volume_db\":null,\"progress\":null,\"artwork\":null\x7d"

def sonataParse (text : String) : Option Message :=
  if text = metadataText then some (.metadata (some "Sonata No. 1") none none)
  else if text = snapshotText then some (.snapshot firstSnapshot)
  else none

/-- With a ping in between, on a screen that has lost a connection before. -/
theorem caught_up_mirrors_sonata :
    (((Screen.new "ws://127.0.0.1:7392" .none).apply base64Data .disconnected).run base64Data
        (.connected :: forwarded sonataParse
          [some (.text snapshotText), some .other, some (.text metadataText)])).connection =
        .connected ∧
      (((Screen.new "ws://127.0.0.1:7392" .none).apply base64Data .disconnected).run base64Data
        (.connected :: forwarded sonataParse
          [some (.text snapshotText), some .other, some (.text metadataText)])).Mirrors "Living Room"
        (published sonataActions) := by
  have hcarries : Carries sonataParse
      [some (.text snapshotText), some .other, some (.text metadataText)] sonataService.received := by
    have hne : snapshotText ≠ metadataText := by decide +kernel
    refine ⟨by simp, .cons ?_ (.cons ?_ .nil)⟩
    · rw [sonataParse, if_neg hne, if_pos rfl]
      rfl
    · rw [sonataParse, if_pos rfl]
      rfl
  exact caught_up_mirrors base64Text base64Data base64_codec sonataParse "Living Room" "1"
    sonataActions sonataService sonata_run rfl rfl rfl _ hcarries _

end Tui

end OpenAirplay
