import OpenAirplay.Shared.Register
import OpenAirplay.Wire

/-!
# Messages on the dashboard socket

A snapshot of all the receiver knows, and one message per change. A change overwrites some
fields of a snapshot and leaves the others, so a snapshot is a set of registers.
-/

namespace OpenAirplay

open Register

set_option autoImplicit false

abbrev U64 := BitVec 64

namespace Dashboard

structure ReceiverInfo where
  name : String
  version : String
  deriving DecidableEq

structure SessionInfo where
  rate : U32
  channels : BitVec 8
  peer : String
  deriving DecidableEq

structure Track where
  title : Option String
  artist : Option String
  album : Option String
  deriving DecidableEq

/-- In milliseconds. -/
structure Progress where
  elapsedMs : U64
  durationMs : U64
  deriving DecidableEq

structure Artwork where
  contentType : String
  dataBase64 : String
  deriving DecidableEq

/-- The volume is the bits of its `f32`. -/
structure Snapshot where
  receiver : ReceiverInfo
  session : Option SessionInfo
  track : Option Track
  volumeDb : Option (BitVec 32)
  progress : Option Progress
  artwork : Option Artwork
  deriving DecidableEq

inductive Message where
  | snapshot (snapshot : Snapshot)
  | sessionStarted (rate : U32) (channels : BitVec 8) (peer : String)
  | metadata (title artist album : Option String)
  | artwork (contentType dataBase64 : String)
  | volume (db : BitVec 32)
  | progress (elapsedMs durationMs : U64)
  | flushed
  | sessionEnded
  deriving DecidableEq

namespace Snapshot

def default : Snapshot := ⟨⟨"", ""⟩, none, none, none, none, none⟩

/-- A seek makes the position stale, the end of a session leaves only the receiver. -/
def apply (s : Snapshot) : Message → Snapshot
  | .snapshot snapshot => snapshot
  | .sessionStarted rate channels peer => { s with session := some ⟨rate, channels, peer⟩ }
  | .metadata title artist album => { s with track := some ⟨title, artist, album⟩ }
  | .artwork contentType dataBase64 =>
    { s with artwork := if dataBase64 = "" then none else some ⟨contentType, dataBase64⟩ }
  | .volume db => { s with volumeDb := some db }
  | .progress elapsedMs durationMs => { s with progress := some ⟨elapsedMs, durationMs⟩ }
  | .flushed => { s with progress := none }
  | .sessionEnded => { default with receiver := s.receiver }

def fold (s : Snapshot) (ms : List Message) : Snapshot := ms.foldl apply s

@[simp] theorem fold_nil (s : Snapshot) : s.fold [] = s := rfl

@[simp] theorem fold_cons (s : Snapshot) (m : Message) (ms : List Message) :
    s.fold (m :: ms) = (s.apply m).fold ms := rfl

@[simp] theorem fold_append (s : Snapshot) (ms ns : List Message) :
    s.fold (ms ++ ns) = (s.fold ms).fold ns := by
  simp only [fold, List.foldl_append]

end Snapshot

/-! ## Its registers -/

namespace Message

def receiver? : Message → Option ReceiverInfo
  | .snapshot s => some s.receiver
  | _ => none

def session? : Message → Option (Option SessionInfo)
  | .snapshot s => some s.session
  | .sessionStarted rate channels peer => some (some ⟨rate, channels, peer⟩)
  | .sessionEnded => some none
  | _ => none

def track? : Message → Option (Option Track)
  | .snapshot s => some s.track
  | .metadata title artist album => some (some ⟨title, artist, album⟩)
  | .sessionEnded => some none
  | _ => none

def volumeDb? : Message → Option (Option (BitVec 32))
  | .snapshot s => some s.volumeDb
  | .volume db => some (some db)
  | .sessionEnded => some none
  | _ => none

def progress? : Message → Option (Option Progress)
  | .snapshot s => some s.progress
  | .progress elapsedMs durationMs => some (some ⟨elapsedMs, durationMs⟩)
  | .flushed | .sessionEnded => some none
  | _ => none

def artwork? : Message → Option (Option Artwork)
  | .snapshot s => some s.artwork
  | .artwork contentType dataBase64 =>
    some (if dataBase64 = "" then none else some ⟨contentType, dataBase64⟩)
  | .sessionEnded => some none
  | _ => none

end Message

/-- Each field of a snapshot is what the last message to write it wrote. -/
theorem Snapshot.fold_eq (s : Snapshot) (ms : List Message) :
    s.fold ms =
      { receiver := after Message.receiver? s.receiver ms
        session := after Message.session? s.session ms
        track := after Message.track? s.track ms
        volumeDb := after Message.volumeDb? s.volumeDb ms
        progress := after Message.progress? s.progress ms
        artwork := after Message.artwork? s.artwork ms } := by
  induction ms generalizing s with
  | nil => rfl
  | cons m ms ih =>
    rw [fold_cons, ih]
    cases m <;> rfl

/-- Messages a snapshot already contains change nothing when they come after it. -/
theorem Snapshot.fold_replay (s : Snapshot) (ms : List Message) :
    (s.fold ms).fold ms = s.fold ms := by
  simp only [fold_eq, after_replay]

end Dashboard

end OpenAirplay
