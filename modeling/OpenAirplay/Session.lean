import OpenAirplay.AudioReceiver
import OpenAirplay.Crypto
import OpenAirplay.Dmap
import OpenAirplay.Events
import OpenAirplay.Rtsp
import OpenAirplay.Shared.Program

/-!
# The per-connection session

The handlers of one RTSP connection, as programs over what they do outside the session:
the shared slot, the event channel, sockets, sinks, tasks and the playback thread. A
session owns everything else and is passed along explicitly.
-/

namespace OpenAirplay

open Text Audio

set_option autoImplicit false

/-- Local ports of the audio, control and timing sockets, 0 where unknown. -/
structure Ports where
  audio : U16
  control : U16
  timing : U16
  deriving DecidableEq

/-- What a session asks of its surroundings. Players, sinks and tasks are named by number. -/
inductive Query where
  | compareExchange
  | random
  | bindThree (ip : IpAddr)
  | makeSink (rate : U32) (channels : BitVec 8)
  | spawnPlayer (config : AlacConfig) (sink : Nat)
  | spawnAudio (params : StreamParams) (observer : Bool) (player : Nat) (clientControl : SocketAddr)
  | spawnControl
  | spawnTiming (clientTiming : SocketAddr)
  deriving DecidableEq

/-- The exchange says whether it succeeded, a failed bind has no ports. -/
abbrev Query.Answer : Query → Type
  | .compareExchange => Bool
  | .random => Vector UInt8 8
  | .bindThree _ => Option Ports
  | _ => Nat

/-- What it does to them. A flush channel has the number of the audio task that reads it. -/
inductive Effect where
  | releaseSlot
  | send (event : Event)
  | setTrack (track : Option Track)
  | setStop (player : Nat)
  | sendStop (player : Nat)
  | join (player : Nat)
  | abort (task : Nat)
  | sendFlush (channel : Nat) (flushTo : Option U16)
  | closeFlush (channel : Nat)
  deriving DecidableEq

inductive Op where
  | ask (query : Query)
  | act (effect : Effect)
  deriving DecidableEq

abbrev Op.Res : Op → Type
  | .ask query => query.Answer
  | .act _ => Unit

abbrev Action := Program Op Op.Res

def ask (query : Query) : Action query.Answer := Program.perform (Op.ask query)

def act (effect : Effect) : Action Unit := Program.perform (Op.act effect)

structure Session where
  params : Option StreamParams
  tasks : List Nat
  observer : Bool
  streaming : Bool
  pendingMetadata : Option Event
  pendingArtwork : Option Event
  player : Option Nat
  flushTx : Option Nat
  peerIp : IpAddr
  slotGuard : Bool
  authNonce : Option String
  authorized : Bool
  localPorts : Ports
  deriving DecidableEq

def sendEvents : List Event → Action Unit
  | [] => pure ()
  | event :: events => do
    act (.send event)
    sendEvents events

def abortTasks : List Nat → Action Unit
  | [] => pure ()
  | task :: tasks => do
    act (.abort task)
    abortTasks tasks

/-- Dropping a player: the flag skips a backlog, the command wakes an idle thread. -/
def dropPlayer : Option Nat → Action Unit
  | none => pure ()
  | some player => do
    act (.setStop player)
    act (.sendStop player)
    act (.join player)

def closeFlush : Option Nat → Action Unit
  | none => pure ()
  | some channel => act (.closeFlush channel)

def releaseSlot : Bool → Action Unit
  | false => pure ()
  | true => act .releaseSlot

/-- The key and IV of an encrypted stream, from base64 with or without padding. -/
def sdpBase64 (crates : Crates) (value : String) : Option Bytes :=
  crates.base64DecodeNoPad (trimEndMatches (trim value) '=')

def decryptStreamKey (crates : Crates) (rsaaeskey aesiv : String) :
    Except String (Rtp.Block × Rtp.Block) :=
  match sdpBase64 crates aesiv with
  | none => .error "aesiv is not valid base64"
  | some ivBytes =>
    match Crypto.toBlock ivBytes with
    | none => .error ("aesiv is " ++ Nat.repr ivBytes.length ++ " bytes, wanted 16")
    | some iv =>
      match sdpBase64 crates rsaaeskey with
      | none => .error "rsaaeskey is not valid base64"
      | some ciphertext =>
        match Crypto.decryptAesKey crates ciphertext with
        | .error e => .error e.toString
        | .ok key => .ok (key, iv)

def isUnspecified : IpAddr → Bool
  | .v4 octets => octets = .replicate 4 0
  | .v6 octets => octets = .replicate 16 0

def dmapContentType : String := "application/x-dmap-tagged"

namespace Session

def new (observer : Bool) (peerIp : IpAddr) : Session where
  params := none
  tasks := []
  observer := observer
  streaming := false
  pendingMetadata := none
  pendingArtwork := none
  player := none
  flushTx := none
  peerIp := peerIp
  slotGuard := false
  authNonce := none
  authorized := false
  localPorts := ⟨0, 0, 0⟩

def challenge (nonce : String) : Response :=
  (Response.new 401 "Unauthorized").header "WWW-Authenticate"
    ("Digest realm=\"raop\", nonce=\"" ++ nonce ++ "\"")

/-- The nonce is made on the first challenge and kept for the connection. -/
def authChallenge (crates : Crates) (s : Session) : Action (Session × Option Response) :=
  match s.authNonce with
  | some nonce => pure (s, some (challenge nonce))
  | none => do
    let bytes ← ask .random
    let nonce := crates.base64Encode bytes.toList
    pure ({ s with authNonce := some nonce }, some (challenge nonce))

/-- The request carries the digest response for this password and nonce. -/
def answers (crates : Crates) (password nonce : String) (request : Request) : Bool :=
  match request.headers.get "Authorization" with
  | none => false
  | some auth =>
    if startsWith auth "Digest " then
      match digestParam auth "realm", digestParam auth "username", digestParam auth "response",
        digestParam auth "uri" with
      | some realm, some username, some response, some uri =>
        Crypto.ctEqHex
          (Crypto.digestResponse crates username realm password request.method uri nonce) response
      | _, _, _, _ => false
    else false

/-- No response means that the request may go on to its method. -/
def authenticate (crates : Crates) (s : Session) (password : Option String) (request : Request) :
    Action (Session × Option Response) :=
  if s.authorized then pure (s, none)
  else
    match password with
    | none => pure ({ s with authorized := true }, none)
    | some password =>
      if answers crates password (s.authNonce.getD "") request then
        pure ({ s with authorized := true }, none)
      else s.authChallenge crates

def handleAnnounce (crates : Crates) (s : Session) (request : Request) : Session × Response :=
  let sdp := Sdp.parse (fromUtf8Lossy request.body)
  match sdp.fmtp.bind AlacConfig.parse with
  | none => (s, .new 400 "Bad Request")
  | some alac =>
    match sdp.rsaaeskey, sdp.aesiv with
    | none, none =>
      ({ s with params := some ⟨false, .replicate 16 0, .replicate 16 0, alac⟩ }, .ok)
    | some rsaaeskey, some aesiv =>
      match decryptStreamKey crates rsaaeskey aesiv with
      | .ok (key, iv) => ({ s with params := some ⟨true, key, iv, alac⟩ }, .ok)
      | .error _ => (s, .new 456 "Header Field Not Valid for Resource")
    | _, _ => (s, .new 456 "Header Field Not Valid for Resource")

/-- Metadata and artwork latched before the session started. -/
def latched (s : Session) : List Event := s.pendingMetadata.toList ++ s.pendingArtwork.toList

/-- The part of SETUP after the sockets are bound. -/
def startStream (s : Session) (params : StreamParams) (ports : Ports)
    (controlPort timingPort : U16) : Action (Session × Response) := do
  act (.send (.sessionStarted params.alac.sampleRate params.alac.channels s.peerIp))
  sendEvents s.latched
  let sink ← ask (.makeSink params.alac.sampleRate params.alac.channels)
  let player ← ask (.spawnPlayer params.alac sink)
  dropPlayer s.player
  closeFlush s.flushTx
  let audio ← ask (.spawnAudio params s.observer player ⟨s.peerIp, controlPort⟩)
  let control ← ask .spawnControl
  let timing ← ask (.spawnTiming ⟨s.peerIp, timingPort⟩)
  let transport := "RTP/AVP/UDP;unicast;interleaved=0-1;mode=record;control_port=" ++
    Nat.repr ports.control.toNat ++ ";timing_port=" ++ Nat.repr ports.timing.toNat ++
    ";server_port=" ++ Nat.repr ports.audio.toNat
  pure
    ({ s with
        tasks := s.tasks ++ [audio, control, timing]
        streaming := true
        pendingMetadata := none
        pendingArtwork := none
        player := some player
        flushTx := some audio
        localPorts := ports },
      (Response.ok.header "Transport" transport).header "Session" "1")

/-- The client's control and timing ports. -/
def clientPorts (request : Request) : Option (U16 × U16) :=
  match request.headers.get "Transport" with
  | none => none
  | some transport =>
    match transportParam transport "control_port", transportParam transport "timing_port" with
    | some controlPort, some timingPort => some (controlPort, timingPort)
    | _, _ => none

def bindIp (localIp : IpAddr) : IpAddr :=
  if isUnspecified localIp then .v4 (.replicate 4 0) else localIp

/-- The part of SETUP that holds the slot. A missing header and a missing port are refused
alike, and the guard stays with the session whichever way this ends. -/
def openStream (s : Session) (params : StreamParams) (request : Request) (localIp : IpAddr) :
    Action (Session × Response) :=
  match clientPorts request with
  | none => pure (s, .new 400 "Bad Request")
  | some (controlPort, timingPort) => do
    let bound ← ask (.bindThree (bindIp localIp))
    match bound with
    | none => pure (s, .new 500 "Internal Server Error")
    | some ports => s.startStream params ports controlPort timingPort

def handleSetup (s : Session) (request : Request) (localIp : IpAddr) :
    Action (Session × Response) :=
  match s.params with
  | none => pure (s, .new 455 "Method Not Valid in This State")
  | some params =>
    if s.slotGuard then s.openStream params request localIp
    else do
      let acquired ← ask .compareExchange
      match acquired with
      | true => openStream { s with slotGuard := true } params request localIp
      | false => pure (s, .new 453 "Not Enough Bandwidth")

/-- The initial sequence and timestamp of a RECORD are only logged. -/
def handleRecord : Response := Response.ok.header "Audio-Latency" "11025"

def endSession (s : Session) : Action Session := do
  act (.setTrack none)
  if s.streaming then
    act (.send .sessionEnded)
    pure { s with streaming := false }
  else pure s

def stopTasks (s : Session) : Action Session := do
  abortTasks s.tasks
  pure { s with tasks := [] }

/-- The slot is released before the end of the session is reported. -/
def teardown (s : Session) : Action Session := do
  let s ← s.stopTasks
  dropPlayer s.player
  closeFlush s.flushTx
  releaseSlot s.slotGuard
  endSession { s with player := none, flushTx := none, slotGuard := false }

/-- Dropping the session: its destructor, then its fields in order. -/
def drop (s : Session) : Action Unit := do
  let s ← s.stopTasks
  let s ← s.endSession
  dropPlayer s.player
  closeFlush s.flushTx
  releaseSlot s.slotGuard

/-- Outside a session the event is latched, the latest of each kind. -/
def sendSessionEvent (s : Session) (event : Event) : Action Session :=
  if s.streaming then do
    act (.send event)
    pure s
  else
    match event with
    | .artwork _ _ => pure { s with pendingArtwork := some event }
    | _ => pure { s with pendingMetadata := some event }

def setMetadata (s : Session) (body : Bytes) : Action Session :=
  match Dmap.parse body with
  | none => pure s
  | some tags => s.sendSessionEvent (.metadata tags.title tags.artist tags.album)

def setArtwork (s : Session) (contentType : String) (body : Bytes) : Action Session :=
  s.sendSessionEvent (.artwork contentType body)

def saturatingSub (a b : U32) : U32 := if a < b then 0 else a - b

/-- `progress: <start>/<current>/<end>`, reported only while a session is running. -/
def setProgress (s : Session) (value : String) : Action Unit :=
  match s.params with
  | none => pure ()
  | some params =>
    if s.streaming then
      match (split value '/').map fun p => parseU32 (trim p) with
      | [some start, some current, some endTs] => do
        act (.setTrack (some ⟨start, endTs⟩))
        let rate := params.alac.sampleRate
        act (.send (.progress (framesToDuration (saturatingSub current start) rate)
          (framesToDuration (saturatingSub endTs start) rate)))
      | _ => pure ()
    else pure ()

def setTextParameter (crates : Crates) (s : Session) (line : String) : Action Unit :=
  match stripPrefix line "volume:" with
  | some v =>
    match crates.parseF32 (trim v) with
    | none => pure ()
    | some db => act (.send (.volume db))
  | none =>
    match stripPrefix line "progress:" with
    | some v => s.setProgress (trim v)
    | none => pure ()

def setTextLines (crates : Crates) (s : Session) : List String → Action Unit
  | [] => pure ()
  | line :: rest => do
    s.setTextParameter crates (trim line)
    s.setTextLines crates rest

def setTextParameters (crates : Crates) (s : Session) (body : Bytes) : Action Unit :=
  s.setTextLines crates (lines (fromUtf8Lossy body))

def isImage (mediaType : String) : Bool :=
  match getPrefix mediaType.toList 6 with
  | none => false
  | some p => eqIgnoreAsciiCase (.ofList p) "image/"

/-- Dispatched on the media type, without its parameters. -/
def setParameter (crates : Crates) (s : Session) (contentType : Option String) (body : Bytes) :
    Action Session :=
  match contentType.map fun ct => trim ((split ct ';').headD ct) with
  | none => do
    s.setTextParameters crates body
    pure s
  | some mediaType =>
    if eqIgnoreAsciiCase mediaType dmapContentType then s.setMetadata body
    else if isImage mediaType then s.setArtwork mediaType body
    else do
      s.setTextParameters crates body
      pure s

def flush (s : Session) (request : Request) : Action Unit := do
  let flushTo := (request.headers.get "RTP-Info").bind fun info => transportParam info "seq"
  match s.flushTx with
  | none => pure ()
  | some channel => act (.sendFlush channel flushTo)
  act (.send .flushed)

/-- No response for a method the session does not own. -/
def handleOther (crates : Crates) (s : Session) (request : Request) :
    Action (Session × Option Response) :=
  match request.method with
  | "TEARDOWN" => do
    let s ← s.teardown
    pure (s, some .ok)
  | "FLUSH" => do
    s.flush request
    pure (s, some .ok)
  | "SET_PARAMETER" => do
    let s ← s.setParameter crates (request.headers.get "Content-Type") request.body
    pure (s, some .ok)
  | "GET_PARAMETER" => pure (s, some .ok)
  | _ => pure (s, none)

end Session

end OpenAirplay
