import OpenAirplay.JitterRuns
import OpenAirplay.Player
import OpenAirplay.Rtp

/-!
# The audio task

`audio_receiver` waits on four sources at once, so a run is any list of inputs. Each
input is one turn of its loop; the outputs are what it sends to the player, to the
observer and to the client's control port.
-/

namespace OpenAirplay.Audio

open Jitter Player Rtp

set_option autoImplicit false

/-- Cryptographic and format parameters captured at ANNOUNCE. -/
structure StreamParams where
  encrypted : Bool
  key : Block
  iv : Block
  alac : AlacConfig
  deriving DecidableEq

structure DecryptedAudio where
  sequence : U16
  timestamp : U32
  looksLikeAlac : Bool
  frame : Bytes
  deriving DecidableEq

/-- Minimum spacing of resend requests for one sequence number, in nanoseconds. -/
def resendBackoff : Nat := 80 * 1000 * 1000

structure ResendTracker where
  last : U16 → Option Nat

namespace ResendTracker

def default : ResendTracker := ⟨fun _ => none⟩

def clear (_ : ResendTracker) : ResendTracker := default

def ready (rt : ResendTracker) (now : Nat) (seq : U16) : Bool :=
  match rt.last seq with
  | none => true
  | some t => resendBackoff ≤ now - t

def dueLoop (now : Nat) : List U16 → ResendTracker → List U16 × ResendTracker
  | [], rt => ([], rt)
  | seq :: missing, rt =>
    if rt.ready now seq then
      let (due, rt') := dueLoop now missing ⟨Function.update rt.last seq (some now)⟩
      (seq :: due, rt')
    else dueLoop now missing rt

/-- The missing sequences due for a request now; entries no longer missing are pruned. -/
def due (rt : ResendTracker) (missing : List U16) (now : Nat) : List U16 × ResendTracker :=
  dueLoop now missing ⟨fun seq => if seq ∈ missing then rt.last seq else none⟩

end ResendTracker

/-- `resend none` and `flush none` are closed channels: the session was dropped. -/
inductive Input where
  | audio (datagram : Bytes)
  | audioError
  | resend (datagram : Option Bytes)
  | tick (now : Nat)
  | flush (flushTo : Option (Option U16))
  deriving DecidableEq

inductive Output where
  | player (command : Command)
  | observe (audio : DecryptedAudio)
  | control (target : SocketAddr) (datagram : Bytes)
  deriving DecidableEq

/-- The task's arguments; `player` and `observer` say whether there is one. -/
structure Config where
  params : StreamParams
  player : Bool
  observer : Bool
  clientControl : SocketAddr

structure Task where
  jitter : JitterBuffer Bytes
  resend : ResendTracker
  anchor : Option (U16 × U32)
  running : Bool

def Task.new : Task := ⟨.default, .default, none, true⟩

/-- A longer datagram is truncated by the receive. -/
def audioBuffer : Nat := 16 * 1024

/-- Timestamps advance by `framesPerPacket` per sequence number from the anchor. -/
def deriveTs (seq : U16) (anchor : Option (U16 × U32)) (framesPerPacket : U32) : U32 :=
  match anchor with
  | none => 0
  | some (aSeq, aTs) => aTs + BitVec.ofInt 32 (max (seqDiff seq aSeq) 0) * framesPerPacket

section Run

variable (decryptBlock : Block → Bytes → Bytes) (cfg : Config)

def frameOf (packet : AudioPacket) : Bytes :=
  if cfg.params.encrypted then
    decryptAudio decryptBlock packet.payload cfg.params.key cfg.params.iv
  else packet.payload

def deliver (anchor : Option (U16 × U32)) : Delivery Bytes → List Output
  | .packet seq frame =>
    let ts := deriveTs seq anchor cfg.params.alac.framesPerPacket
    (if cfg.player then [.player (.frame ts frame)] else []) ++
      (if cfg.observer then [.observe ⟨seq, ts, looksLikeAlacStereo frame, frame⟩] else [])
  | .lost seq =>
    if cfg.player then
      [.player (.silence (deriveTs seq anchor cfg.params.alac.framesPerPacket))]
    else []

def drainDeliveries (task : Task) : Task × List Output :=
  let (out, jitter) := task.jitter.popReady
  ({ task with jitter := jitter }, out.flatMap (deliver cfg task.anchor))

def requestResends (task : Task) (now : Nat) : Task × List Output :=
  let missing := task.jitter.missing
  if missing.isEmpty then (task, [])
  else
    let (due, resend) := task.resend.due missing now
    ({ task with resend := resend },
      due.map fun seq => .control cfg.clientControl (resendRequest seq 1))

def takePacket (task : Task) (packet : AudioPacket) : Task × List Output :=
  drainDeliveries cfg
    { task with jitter := task.jitter.insert packet.sequence (frameOf decryptBlock cfg packet) }

/-- One turn of the loop, on whichever source was ready. -/
def Task.turn (task : Task) : Input → Task × List Output
  | .audio datagram =>
    match AudioPacket.parse (datagram.take audioBuffer) with
    | none => (task, [])
    | some packet =>
      takePacket decryptBlock cfg
        { task with anchor := some (task.anchor.getD (packet.sequence, packet.timestamp)) } packet
  | .audioError => ({ task with running := false }, [])
  | .resend none => ({ task with running := false }, [])
  | .resend (some datagram) =>
    match AudioPacket.parse datagram with
    | none => (task, [])
    | some packet => takePacket decryptBlock cfg task packet
  | .tick now =>
    let (task, out) := drainDeliveries cfg task
    let (task, requests) := requestResends cfg task now
    (task, out ++ requests)
  | .flush none => ({ task with running := false }, [])
  | .flush (some flushTo) =>
    ({ task with jitter := task.jitter.reset flushTo, resend := task.resend.clear, anchor := none },
      if cfg.player then [.player .flush] else [])

def Task.step (task : Task) (i : Input) : Task × List Output :=
  if task.running then task.turn decryptBlock cfg i else (task, [])

def Task.run : Task → List Input → Task × List Output
  | task, [] => (task, [])
  | task, i :: inputs =>
    let (task', out) := task.step decryptBlock cfg i
    let (task'', out') := task'.run inputs
    (task'', out ++ out')

end Run

def frames (out : List Output) : List (U32 × Bytes) :=
  out.filterMap fun
    | .player (.frame ts packet) => some (ts, packet)
    | _ => none

@[simp] theorem frames_nil : frames [] = [] := rfl

@[simp] theorem frames_append (out out' : List Output) :
    frames (out ++ out') = frames out ++ frames out' := by
  simp [frames, List.filterMap_append]

end OpenAirplay.Audio
