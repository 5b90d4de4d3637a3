import OpenAirplay.Clock

/-!
# RAOP datagrams

Parsing of audio, control and timing packets and the per-packet AES-CBC decryption. The AES block cipher
itself is a third-party crate; `decryptBlock key block` stands for it.
-/

namespace OpenAirplay.Rtp

set_option autoImplicit false

def ptAudio : UInt8 := 0x60
def ptResend : UInt8 := 0x56

structure AudioPacket where
  sequence : U16
  timestamp : U32
  isResend : Bool
  payload : Bytes
  deriving DecidableEq, Repr

/-- The header and payload of an RTP packet of at least 12 bytes. -/
def AudioPacket.ofFrame (frame : Bytes) (isResend : Bool) : Option AudioPacket :=
  let payload := frame.drop 12
  if payload.isEmpty then none
  else some
    { sequence := u16FromBe (frame.getD 2 0) (frame.getD 3 0)
      timestamp := u32FromBe (frame.getD 4 0) (frame.getD 5 0) (frame.getD 6 0) (frame.getD 7 0)
      isResend := isResend
      payload := payload }

def AudioPacket.parse (datagram : Bytes) : Option AudioPacket :=
  if datagram.length < 12 then none
  else
    let pt := datagram.getD 1 0 &&& 0x7f
    if pt = ptAudio then AudioPacket.ofFrame datagram false
    else if pt = ptResend then
      let inner := datagram.drop 4
      if inner.length < 12 then none else AudioPacket.ofFrame inner true
    else none

abbrev Block := Vector UInt8 16

section Decrypt

variable (decryptBlock : Block → Bytes → Bytes)

/-- CBC over `n` whole blocks; what follows them is copied through. -/
def decryptBlocks (key : Block) : Nat → Bytes → Bytes → Bytes
  | 0, _, data => data
  | n + 1, prev, data =>
    let block := data.take 16
    List.zipWith (· ^^^ ·) (decryptBlock key block) prev ++ decryptBlocks key n block (data.drop 16)

def decryptAudio (payload : Bytes) (key iv : Block) : Bytes :=
  decryptBlocks decryptBlock key (payload.length / 16) iv.toList payload

variable {decryptBlock}

theorem decryptBlocks_length
    (hblock : ∀ key block, block.length = 16 → (decryptBlock key block).length = 16) (key : Block)
    {n : Nat} {prev data : Bytes} (hprev : prev.length = 16) (hdata : 16 * n ≤ data.length) :
    (decryptBlocks decryptBlock key n prev data).length = data.length := by
  induction n generalizing prev data with
  | zero => rfl
  | succ n ih =>
    have htake : (data.take 16).length = 16 := by
      rw [List.length_take]
      omega
    have hmore : 16 * n ≤ (data.drop 16).length := by
      rw [List.length_drop]
      omega
    have hrest := ih htake hmore
    rw [decryptBlocks, List.length_append, List.length_zipWith, hblock key _ htake, hprev, hrest,
      List.length_drop]
    omega

theorem decryptAudio_length
    (hblock : ∀ key block, block.length = 16 → (decryptBlock key block).length = 16)
    (payload : Bytes) (key iv : Block) :
    (decryptAudio decryptBlock payload key iv).length = payload.length :=
  decryptBlocks_length hblock key (by simp) (Nat.mul_div_le payload.length 16)

end Decrypt

def looksLikeAlacStereo (plaintext : Bytes) : Bool :=
  match plaintext with
  | [] => false
  | b :: _ => b >>> 5 == 1

/-- A retransmit request for `count` packets from `first`. -/
def resendRequest (first count : U16) : Bytes :=
  [0x80, 0x55 ||| 0x80] ++ u16ToBe 1 ++ u16ToBe first ++ u16ToBe count

inductive ControlKind where
  | sync
  | retransmitResponse
  | timingResponse
  | timingRequest
  | other (pt : UInt8)
  deriving DecidableEq

def classifyControl (datagram : Bytes) : Option ControlKind :=
  if datagram.length < 2 then none
  else
    let pt := datagram.getD 1 0 &&& 0x7f
    some <|
      if pt = 0x54 then .sync
      else if pt = 0x56 then .retransmitResponse
      else if pt = 0x53 then .timingResponse
      else if pt = 0x52 then .timingRequest
      else .other pt

def u32At (datagram : Bytes) (o : Nat) : U32 :=
  u32FromBe (datagram.getD o 0) (datagram.getD (o + 1) 0) (datagram.getD (o + 2) 0)
    (datagram.getD (o + 3) 0)

def ntpAt (datagram : Bytes) (o : Nat) : Nat := ntpToNs (u32At datagram o) (u32At datagram (o + 4))

/-- Every timing request is the same. -/
def timingRequest : Bytes := [0x80, 0x52 ||| 0x80] ++ u16ToBe 7 ++ .replicate 28 0

/-- The client's receive and transmit times, on its own clock. -/
structure TimingReply where
  receiveNs : Nat
  transmitNs : Nat
  deriving DecidableEq

def parseTimingReply (datagram : Bytes) : Option TimingReply :=
  if datagram.length < 32 ∨ datagram.getD 1 0 &&& 0x7f ≠ 0x53 then none
  else some ⟨ntpAt datagram 16, ntpAt datagram 24⟩

structure SyncInfo where
  remoteTimeNs : Nat
  rtpAtDac : U32
  rtpCurrent : U32
  deriving DecidableEq

def parseSync (datagram : Bytes) : Option SyncInfo :=
  if datagram.length < 20 ∨ datagram.getD 1 0 &&& 0x7f ≠ 0x54 then none
  else some ⟨ntpAt datagram 8, u32At datagram 4, u32At datagram 16⟩

/-- An audio packet as a sender puts it on the wire. -/
def audioDatagram (sequence : U16) (timestamp : U32) (ssrc : U32) (payload : Bytes) : Bytes :=
  [0x80, ptAudio] ++ u16ToBe sequence ++ u32ToBe timestamp ++ u32ToBe ssrc ++ payload

theorem parse_audioDatagram (sequence : U16) (timestamp ssrc : U32) {payload : Bytes}
    (h : payload ≠ []) :
    AudioPacket.parse (audioDatagram sequence timestamp ssrc payload) =
      some ⟨sequence, timestamp, false, payload⟩ := by
  obtain ⟨b, rest, rfl⟩ := List.exists_cons_of_ne_nil h
  have hpt : (0x60 : UInt8) &&& 0x7f = 0x60 := by decide
  simp [hpt, AudioPacket.parse, AudioPacket.ofFrame, audioDatagram, u16ToBe, u32ToBe, ptAudio,
    u16FromBe_toBe, u32FromBe_toBe]

end OpenAirplay.Rtp
