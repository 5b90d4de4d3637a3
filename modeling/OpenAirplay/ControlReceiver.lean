import OpenAirplay.Timestamps

/-!
# The control channel

Sync packets anchor the clock, and the packets we asked for again are handed on to the audio
task. A datagram longer than the receive buffer is truncated on either socket.
-/

namespace OpenAirplay.Audio

open Jitter Rtp

set_option autoImplicit false

def controlBuffer : Nat := 2048

/-- One turn of `control_receiver`: what it does to the clock and hands to the audio task. -/
def controlTurn (clock : ClockModel) (datagram : Bytes) : ClockModel × Option Bytes :=
  let received := datagram.take controlBuffer
  match parseSync received with
  | some sync => (clock.setAnchor sync.remoteTimeNs sync.rtpAtDac, none)
  | none =>
    match classifyControl received with
    | some .retransmitResponse => (clock, some received)
    | _ => (clock, none)

/-- Four bytes in front of a retransmitted packet. -/
structure ResendHeader where
  bytes : Bytes
  length : bytes.length = 4
  payloadType : bytes.getD 1 0 &&& 0x7f = ptResend

section Insertion

variable (decryptBlock : Block → Bytes → Bytes) (cfg : Config)

/-- What a turn of the audio task inserts into the jitter buffer. -/
def Input.inserted (i : Input) : Option (U16 × Bytes) :=
  i.packet?.map fun packet => (packet.sequence, frameOf decryptBlock cfg packet)

/-- The jitter buffer after a datagram from either socket, whatever came before. -/
theorem turn_jitter (task : Task) {i : Input}
    (hi : (∃ datagram, i = .audio datagram) ∨ ∃ datagram, i = .resend (some datagram)) :
    (task.turn decryptBlock cfg i).1.jitter =
      match i.inserted decryptBlock cfg with
      | none => task.jitter
      | some (seq, frame) => (task.jitter.insert seq frame).popReady.2 := by
  rcases hi with ⟨datagram, rfl⟩ | ⟨datagram, rfl⟩
  · simp only [Input.inserted, Input.packet?, Task.turn]
    cases AudioPacket.parse (datagram.take audioBuffer) <;> rfl
  · simp only [Input.inserted, Input.packet?, Task.turn]
    cases AudioPacket.parse datagram <;> rfl

/-- What the retransmission of `d` leads the audio task to insert. -/
def retransmitted (clock : ClockModel) (header : ResendHeader) (d : Bytes) :
    Option (U16 × Bytes) :=
  (controlTurn clock (header.bytes ++ d)).2.bind fun received =>
    Input.inserted decryptBlock cfg (.resend (some received))

theorem controlTurn_resend (clock : ClockModel) (header : ResendHeader) (d : Bytes) :
    controlTurn clock (header.bytes ++ d) = (clock, some (header.bytes ++ d.take 2044)) := by
  obtain ⟨h0, h1, h2, h3, hbytes⟩ := List.length_eq_four.mp header.length
  have hpt := header.payloadType
  rw [hbytes] at hpt ⊢
  have htake : ([h0, h1, h2, h3] ++ d).take controlBuffer = [h0, h1, h2, h3] ++ d.take 2044 := rfl
  have hresend : h1 &&& 0x7f = 0x56 := hpt
  unfold controlTurn
  rw [htake]
  simp [parseSync, classifyControl, hresend]

/-- Behind the resend header stands the datagram as it was sent the first time. -/
theorem parse_resend (header : ResendHeader) {d : Bytes} {packet : AudioPacket}
    (hlen : 12 ≤ d.length) (hparse : AudioPacket.ofFrame d true = some packet) :
    AudioPacket.parse (header.bytes ++ d) = some packet := by
  obtain ⟨h0, h1, h2, h3, hbytes⟩ := List.length_eq_four.mp header.length
  have hpt := header.payloadType
  rw [hbytes] at hpt ⊢
  have hresend : h1 &&& 0x7f = 0x56 := hpt
  have hshort : ¬d.length < 12 := by omega
  simp [AudioPacket.parse, hresend, ptAudio, ptResend, hshort, hparse]
  omega

/-- A truncated packet keeps its header and the start of its payload. -/
theorem ofFrame_take (d : Bytes) (isResend : Bool) {n : Nat} (hn : 12 < n) :
    AudioPacket.ofFrame (d.take n) isResend =
      (AudioPacket.ofFrame d false).map fun packet =>
        { packet with isResend := isResend, payload := packet.payload.take (n - 12) } := by
  have hbyte : ∀ i, i < 12 → (d.take n).getD i 0 = d.getD i 0 := by
    intro i hi
    rw [List.getD_eq_getElem?_getD, List.getElem?_take_of_lt (by omega),
      ← List.getD_eq_getElem?_getD]
  unfold AudioPacket.ofFrame
  rw [List.drop_take]
  simp only [hbyte _ (by decide : 2 < 12), hbyte _ (by decide : 3 < 12),
    hbyte _ (by decide : 4 < 12), hbyte _ (by decide : 5 < 12), hbyte _ (by decide : 6 < 12),
    hbyte _ (by decide : 7 < 12)]
  cases hpayload : d.drop 12 with
  | nil => simp
  | cons b rest =>
    obtain ⟨m, hm⟩ : ∃ m, n - 12 = m + 1 := ⟨n - 13, by omega⟩
    simp [hm]

theorem ofFrame_of_parse {d : Bytes} {packet : AudioPacket}
    (hparse : AudioPacket.parse d = some packet) (haudio : packet.isResend = false) :
    AudioPacket.ofFrame d false = some packet ∧ packet.payload = d.drop 12 ∧ 12 < d.length := by
  have hframe : AudioPacket.ofFrame d false = some packet := by
    unfold AudioPacket.parse at hparse
    split at hparse
    · cases hparse
    · simp only at hparse
      split at hparse
      · exact hparse
      · split at hparse
        · split at hparse
          · cases hparse
          · unfold AudioPacket.ofFrame at hparse
            simp only at hparse
            split at hparse
            · cases hparse
            · cases hparse
              cases haudio
        · cases hparse
  refine ⟨hframe, ?_⟩
  unfold AudioPacket.ofFrame at hframe
  simp only at hframe
  split at hframe
  · cases hframe
  · rename_i hpayload
    cases hframe
    refine ⟨rfl, ?_⟩
    by_contra hshort
    apply hpayload
    rw [List.drop_eq_nil_of_le (by omega)]
    rfl

variable {decryptBlock cfg}

theorem inserted_audio {d : Bytes} {packet : AudioPacket} (hlen : d.length ≤ audioBuffer)
    (hparse : AudioPacket.parse d = some packet) :
    Input.inserted decryptBlock cfg (.audio d) =
      some (packet.sequence, frameOf decryptBlock cfg packet) := by
  simp only [Input.inserted, Input.packet?]
  rw [List.take_of_length_le hlen, hparse]
  rfl

/-- The retransmission carries at most 2032 bytes of the payload. -/
theorem retransmitted_eq (clock : ClockModel) (header : ResendHeader) {d : Bytes}
    {packet : AudioPacket} (hparse : AudioPacket.parse d = some packet)
    (haudio : packet.isResend = false) :
    retransmitted decryptBlock cfg clock header d =
      some (packet.sequence, frameOf decryptBlock cfg
        { packet with isResend := true, payload := packet.payload.take 2032 }) := by
  obtain ⟨hframe, -, hlen⟩ := ofFrame_of_parse hparse haudio
  have htaken : 12 ≤ (d.take 2044).length := by
    rw [List.length_take]
    omega
  have hresend := ofFrame_take d true (by decide : 12 < 2044)
  rw [hframe] at hresend
  simp only [retransmitted, controlTurn_resend, Option.bind_some, Input.inserted, Input.packet?]
  rw [parse_resend header htaken hresend]
  rfl

theorem frameOf_length
    (hblock : ∀ key block, block.length = 16 → (decryptBlock key block).length = 16)
    (packet : AudioPacket) :
    (frameOf decryptBlock cfg packet).length = packet.payload.length := by
  unfold frameOf
  split
  · exact decryptAudio_length hblock _ _ _
  · rfl

theorem retransmitted_of_fits (clock : ClockModel) (header : ResendHeader) {d : Bytes}
    {packet : AudioPacket} (hlen : d.length ≤ audioBuffer)
    (hparse : AudioPacket.parse d = some packet) (haudio : packet.isResend = false)
    (hfits : d.length + 4 ≤ controlBuffer) :
    retransmitted decryptBlock cfg clock header d =
      Input.inserted decryptBlock cfg (.audio d) := by
  obtain ⟨-, hpayload, -⟩ := ofFrame_of_parse hparse haudio
  have hwhole : packet.payload.take 2032 = packet.payload := by
    apply List.take_of_length_le
    simp only [hpayload, List.length_drop, controlBuffer] at hfits ⊢
    omega
  rw [retransmitted_eq clock header hparse haudio, inserted_audio hlen hparse, hwhole]
  rfl

theorem retransmitted_of_truncated
    (hblock : ∀ key block, block.length = 16 → (decryptBlock key block).length = 16)
    (clock : ClockModel) (header : ResendHeader) {d : Bytes} {packet : AudioPacket}
    (hlen : d.length ≤ audioBuffer) (hparse : AudioPacket.parse d = some packet)
    (haudio : packet.isResend = false) (hlong : controlBuffer < d.length + 4) :
    retransmitted decryptBlock cfg clock header d ≠
      Input.inserted decryptBlock cfg (.audio d) := by
  obtain ⟨-, hpayload, -⟩ := ofFrame_of_parse hparse haudio
  rw [retransmitted_eq clock header hparse haudio, inserted_audio hlen hparse]
  intro heq
  have hframe := congrArg (fun inserted => inserted.2.length) (Option.some.inj heq)
  simp only [frameOf_length hblock, hpayload, List.length_take, List.length_drop] at hframe
  simp only [controlBuffer] at hlong
  omega

end Insertion

/-- A packet comes back the same on the control channel exactly when it fits its buffer there
behind the resend header. -/
theorem resend_matches_iff (decryptBlock : Block → Bytes → Bytes)
    (hblock : ∀ key block, block.length = 16 → (decryptBlock key block).length = 16)
    (cfg : Config) (clock : ClockModel) (header : ResendHeader) (d : Bytes) (packet : AudioPacket)
    (hlen : d.length ≤ audioBuffer) (hparse : AudioPacket.parse d = some packet)
    (haudio : packet.isResend = false) :
    retransmitted decryptBlock cfg clock header d = Input.inserted decryptBlock cfg (.audio d) ↔
      d.length + 4 ≤ controlBuffer := by
  constructor
  · intro hsame
    by_contra hlong
    exact retransmitted_of_truncated hblock clock header hlen hparse haudio (by omega) hsame
  · exact retransmitted_of_fits clock header hlen hparse haudio

def resendHeader : ResendHeader := ⟨[0x80, 0xd6, 0, 1], rfl, by decide⟩

theorem resend_matches_short :
    retransmitted (fun _ block => block) exampleConfig (.new 44100) resendHeader
        (audioDatagram 7 42 0 [1, 2, 3]) =
      Input.inserted (fun _ block => block) exampleConfig (.audio (audioDatagram 7 42 0 [1, 2, 3])) ↔
        (audioDatagram 7 42 0 [1, 2, 3]).length + 4 ≤ controlBuffer :=
  resend_matches_iff (fun _ block => block) (fun _ _ h => h) exampleConfig (.new 44100) resendHeader
    (audioDatagram 7 42 0 [1, 2, 3]) ⟨7, 42, false, [1, 2, 3]⟩ (by decide)
    (parse_audioDatagram 7 42 0 (by simp)) rfl

def longPayload : Bytes := .replicate 2033 0

/-- A packet of 2033 bytes of audio loses its last byte on the way back. -/
theorem long_resend_truncated :
    (audioDatagram 7 42 0 longPayload).length ≤ audioBuffer ∧
      AudioPacket.parse (audioDatagram 7 42 0 longPayload) = some ⟨7, 42, false, longPayload⟩ ∧
      retransmitted (fun _ block => block) exampleConfig (.new 44100) resendHeader
          (audioDatagram 7 42 0 longPayload) ≠
        Input.inserted (fun _ block => block) exampleConfig
          (.audio (audioDatagram 7 42 0 longPayload)) := by
  have hpayload : longPayload.length = 2033 := List.length_replicate
  have hlen : (audioDatagram 7 42 0 longPayload).length = 2045 := by
    simp [audioDatagram, u16ToBe, u32ToBe, hpayload]
  have hparse : AudioPacket.parse (audioDatagram 7 42 0 longPayload) =
      some ⟨7, 42, false, longPayload⟩ :=
    parse_audioDatagram 7 42 0 (List.ne_nil_of_length_eq_add_one hpayload)
  refine ⟨by rw [hlen]; decide, hparse, ?_⟩
  refine retransmitted_of_truncated (fun _ _ h => h) (.new 44100) resendHeader ?_ hparse rfl ?_
  · rw [hlen]
    decide
  · rw [hlen]
    decide

end OpenAirplay.Audio
