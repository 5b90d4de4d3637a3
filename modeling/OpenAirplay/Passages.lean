import OpenAirplay.ControlReceiver
import OpenAirplay.Decryption
import OpenAirplay.Reordering

/-!
# What a sender streams

From one flush to the next a sender numbers and stamps its packets without a break. They reach
the audio task on its own socket or by way of the control channel, among ticks and datagrams
that are no packets, and overtake each other by less than the lead of the jitter buffer.
-/

namespace OpenAirplay.Audio

open Jitter Player Rtp SerialNumber

set_option autoImplicit false

def playerCommands (out : List Output) : List Command :=
  out.filterMap fun
    | .player command => some command
    | _ => none

@[simp] theorem playerCommands_nil : playerCommands [] = [] := rfl

@[simp] theorem playerCommands_append (out out' : List Output) :
    playerCommands (out ++ out') = playerCommands out ++ playerCommands out' := by
  simp [playerCommands, List.filterMap_append]

/-- The command a delivery is passed on as. -/
def commandOf (framesPerPacket : U32) (anchor : Option (U16 × U32)) : Delivery Bytes → Command
  | .packet seq frame => .frame (deriveTs seq anchor framesPerPacket) frame
  | .lost seq => .silence (deriveTs seq anchor framesPerPacket)

section Turns

variable {decryptBlock : Block → Bytes → Bytes} {cfg : Config}

theorem playerCommands_deliver (hplayer : cfg.player = true) (anchor : Option (U16 × U32))
    (out : List (Delivery Bytes)) :
    playerCommands (out.flatMap (deliver cfg anchor)) =
      out.map (commandOf cfg.params.alac.framesPerPacket anchor) := by
  induction out with
  | nil => rfl
  | cons d out ih =>
    rw [List.flatMap_cons, playerCommands_append, ih, List.map_cons]
    cases d with
    | packet seq frame =>
      have hobs : playerCommands (if cfg.observer then [Output.observe ⟨seq, deriveTs seq anchor
          cfg.params.alac.framesPerPacket, looksLikeAlacStereo frame, frame⟩] else []) = [] := by
        split <;> rfl
      simp only [deliver, hplayer, if_true, playerCommands_append, hobs]
      rfl
    | lost seq =>
      simp only [deliver, hplayer, if_true]
      rfl

variable (decryptBlock cfg) in
theorem playerCommands_idle {task : Task} {i : Input} (hplain : i.Plain) (h : i.packet? = none)
    (hidle : task.jitter.popReady = ([], task.jitter)) :
    playerCommands (task.turn decryptBlock cfg i).2 = [] := by
  cases i with
  | audio datagram =>
    have hparse : AudioPacket.parse (datagram.take audioBuffer) = none := h
    simp [Task.turn, hparse]
  | resend datagram =>
    cases datagram with
    | none => cases hplain
    | some datagram =>
      have hparse : AudioPacket.parse datagram = none := h
      simp [Task.turn, hparse]
  | tick now =>
    have hdrain : drainDeliveries cfg task = (task, []) := by
      simp [drainDeliveries, hidle]
    simp only [Task.turn, hdrain, List.nil_append, requestResends]
    split
    · rfl
    · simp [playerCommands, List.filterMap_map]
  | audioError => cases hplain
  | flush flushTo => cases hplain

theorem run_append (task : Task) (inputs more : List Input) :
    task.run decryptBlock cfg (inputs ++ more) =
      (((task.run decryptBlock cfg inputs).1.run decryptBlock cfg more).1,
        (task.run decryptBlock cfg inputs).2 ++
          ((task.run decryptBlock cfg inputs).1.run decryptBlock cfg more).2) := by
  induction inputs generalizing task with
  | nil => rfl
  | cons i inputs ih => simp [Task.run, ih]

end Turns

/-! ## A passage and its datagrams -/

/-- The packets between two flushes: the `i`-th carries `frames i`. -/
structure Passage where
  firstSeq : U16
  firstTs : U32
  ssrc : U32
  count : Nat
  frames : Nat → Bytes
  nonempty : ∀ i < count, frames i ≠ []

namespace Passage

section Sender

variable (encryptBlock : Block → Bytes → Bytes) (cfg : Config) (p : Passage)

def payload (i : Nat) : Bytes :=
  if cfg.params.encrypted then
    encryptAudio encryptBlock (p.frames i) cfg.params.key cfg.params.iv
  else p.frames i

def datagram (i : Nat) : Bytes :=
  audioDatagram (place p.firstSeq i)
    (p.firstTs + BitVec.ofNat 32 i * cfg.params.alac.framesPerPacket) p.ssrc
    (p.payload encryptBlock cfg i)

/-- Either way a packet can come, whole. -/
inductive Brings (i : Nat) : Input → Prop where
  | socket :
    (p.datagram encryptBlock cfg i).length ≤ audioBuffer →
      Brings i (.audio (p.datagram encryptBlock cfg i))
  | resent {clock : ClockModel} {header : ResendHeader} {received : Bytes} :
    (p.datagram encryptBlock cfg i).length + 4 ≤ controlBuffer →
      (controlTurn clock (header.bytes ++ p.datagram encryptBlock cfg i)).2 = some received →
      Brings i (.resend (some received))

/-- Inputs that bring these packets in this order. -/
inductive Arrives : List Nat → List Input → Prop where
  | nil : Arrives [] []
  | idle {i : Input} {order : List Nat} {inputs : List Input} :
    i.Plain → i.packet? = none → Arrives order inputs → Arrives order (i :: inputs)
  | packet {j : Nat} {i : Input} {order : List Nat} {inputs : List Input} :
    p.Brings encryptBlock cfg j i → Arrives order inputs → Arrives (j :: order) (i :: inputs)

/-- The inputs of a passage. The first packet comes before the others, on the audio socket. -/
inductive Received : List Input → Prop where
  | nothing {inputs : List Input} :
    p.count = 0 → p.Arrives encryptBlock cfg [] inputs → Received inputs
  | stream {order : List Nat} {before after : List Input} :
    Order Jitter.maxLead p.count (0 :: order) → p.Arrives encryptBlock cfg [] before →
      (p.datagram encryptBlock cfg 0).length ≤ audioBuffer →
      p.Arrives encryptBlock cfg order after →
      Received (before ++ .audio (p.datagram encryptBlock cfg 0) :: after)

/-- What the player is told of a passage that arrives complete. -/
def commands : List Command :=
  (List.range p.count).map fun i =>
    .frame (stampAt p.firstSeq p.firstTs cfg.params.alac.framesPerPacket i) (p.frames i)

end Sender

variable {encryptBlock decryptBlock : Block → Bytes → Bytes} {cfg : Config} {p : Passage}

theorem payload_ne_nil (h : Inverts encryptBlock decryptBlock) {i : Nat} (hi : i < p.count) :
    p.payload encryptBlock cfg i ≠ [] := by
  intro hnil
  apply p.nonempty i hi
  unfold payload at hnil
  split at hnil
  · have hback := decrypt_encryptAudio h cfg.params.key cfg.params.iv (p.frames i)
    rw [hnil] at hback
    exact hback.symm
  · exact hnil

/-- On either way the packet is the sender's, and its frame comes out in the clear. -/
theorem Brings.packet (h : Inverts encryptBlock decryptBlock) {i : Nat} (hi : i < p.count)
    {input : Input} (hbrings : p.Brings encryptBlock cfg i input) :
    ∃ packet, input.packet? = some packet ∧ packet.sequence = place p.firstSeq i ∧
      packet.timestamp = p.firstTs + BitVec.ofNat 32 i * cfg.params.alac.framesPerPacket ∧
      frameOf decryptBlock cfg packet = p.frames i := by
  have hframe : ∀ packet : AudioPacket, packet.payload = p.payload encryptBlock cfg i →
      frameOf decryptBlock cfg packet = p.frames i := by
    intro packet hpayload
    rw [frameOf, hpayload, payload]
    split
    · exact decrypt_encryptAudio h _ _ _
    · rfl
  have hparse : AudioPacket.parse (p.datagram encryptBlock cfg i) = some ⟨place p.firstSeq i,
      p.firstTs + BitVec.ofNat 32 i * cfg.params.alac.framesPerPacket, false,
      p.payload encryptBlock cfg i⟩ := parse_audioDatagram _ _ _ (payload_ne_nil h hi)
  cases hbrings with
  | socket hlen =>
    have hpacket : Input.packet? (.audio (p.datagram encryptBlock cfg i)) =
        AudioPacket.parse (p.datagram encryptBlock cfg i) := by
      rw [Input.packet?, List.take_of_length_le hlen]
    exact ⟨_, hpacket.trans hparse, rfl, rfl, hframe _ rfl⟩
  | resent hlen hcontrol =>
    obtain ⟨hclear, -, hlong⟩ := ofFrame_of_parse hparse rfl
    have hresend := ofFrame_take (p.datagram encryptBlock cfg i) true (by decide : 12 < 2044)
    have hfits : (p.datagram encryptBlock cfg i).length ≤ 2044 := by
      simp only [controlBuffer] at hlen
      omega
    rw [controlTurn_resend] at hcontrol
    cases hcontrol
    rw [hclear, Option.map_some] at hresend
    have htaken : 12 ≤ ((p.datagram encryptBlock cfg i).take 2044).length := by
      rw [List.length_take]
      omega
    refine ⟨_, parse_resend _ htaken hresend, rfl, rfl, hframe _ ?_⟩
    have hpayload : (p.payload encryptBlock cfg i).length ≤ 2032 := by
      simp only [datagram, audioDatagram, u16ToBe, u32ToBe, List.length_append, List.length_cons,
        List.length_nil] at hfits
      omega
    exact List.take_of_length_le hpayload

/-! ## From the audio task to the jitter buffer -/

/-- The buffer waits for a packet: there is nothing to hand out. -/
def Waiting (jb : JitterBuffer Bytes) : Prop :=
  ∃ seg : Segment Bytes, seg.buffer = jb ∧ seg.Tracks ∧ jb.popReady = ([], jb)

theorem waiting_reset (jb : JitterBuffer Bytes) (start : Option U16) : Waiting (jb.reset start) :=
  ⟨⟨jb.reset start, start, []⟩, rfl, Segment.tracks_reset jb start, rfl⟩

theorem Waiting.idle {jb : JitterBuffer Bytes} (h : Waiting jb) : jb.popReady = ([], jb) := by
  obtain ⟨-, -, -, hidle⟩ := h
  exact hidle

theorem Waiting.arrive {jb : JitterBuffer Bytes} (h : Waiting jb) (seq : U16) (frame : Bytes) :
    Waiting (jb.arrive seq frame).2 := by
  obtain ⟨seg, rfl, htracks, -⟩ := h
  have hinserted := Segment.tracks_call htracks (.insert seq frame)
  exact ⟨_, rfl, Segment.tracks_call hinserted .popReady, hinserted.popReady_idle⟩

/-- The first packet on the audio socket is the anchor from then on. -/
def Anchored (p : Passage) (task : Task) : Prop := task.anchor = some (p.firstSeq, p.firstTs)

/-- Once the anchor is set the task hands on what the jitter buffer does. -/
theorem run_arrives (h : Inverts encryptBlock decryptBlock) (hplayer : cfg.player = true)
    {order : List Nat} {inputs : List Input} (harrives : p.Arrives encryptBlock cfg order inputs)
    (horder : ∀ j ∈ order, j < p.count) {task : Task} (hrunning : task.running = true)
    (hwaiting : Waiting task.jitter) (hanchor : order ≠ [] → p.Anchored task) :
    (task.run decryptBlock cfg inputs).1.running = true ∧
      (task.run decryptBlock cfg inputs).1.anchor = task.anchor ∧
      (task.run decryptBlock cfg inputs).1.jitter =
        (task.jitter.arriveOrder p.firstSeq p.frames order).2 ∧
      playerCommands (task.run decryptBlock cfg inputs).2 =
        (task.jitter.arriveOrder p.firstSeq p.frames order).1.map
          (commandOf cfg.params.alac.framesPerPacket task.anchor) := by
  induction harrives generalizing task with
  | nil => exact ⟨hrunning, rfl, rfl, rfl⟩
  | @idle i order inputs hplain hnone _ ih =>
    have hidle := hwaiting.idle
    obtain ⟨hjitter, hsame, hrunning', -⟩ := turn_idle decryptBlock cfg hplain hnone hidle
    have hsilent := playerCommands_idle decryptBlock cfg hplain hnone hidle
    obtain ⟨hrun, hkept, hbuffer, hout⟩ := ih horder (hrunning'.trans hrunning)
      (hjitter ▸ hwaiting) fun hne => hsame.trans (hanchor hne)
    rw [run_cons hrunning, playerCommands_append, hsilent, List.nil_append]
    rw [hjitter] at hbuffer hout
    rw [hsame] at hkept hout
    exact ⟨hrun, hkept, hbuffer, hout⟩
  | @packet j i order inputs hbrings _ ih =>
    obtain ⟨packet, hpacket, hseq, -, hframe⟩ :=
      hbrings.packet h (horder j List.mem_cons_self)
    have hset : p.Anchored task := hanchor (List.cons_ne_nil j order)
    have hkeep : i.anchored task.anchor = task.anchor := by
      rw [Input.anchored, hset]
      rfl
    obtain ⟨hrun, hkept, hbuffer, hout⟩ := @ih
      (fun j hj => horder j (List.mem_cons_of_mem _ hj))
      { task with jitter := (task.jitter.arrive (place p.firstSeq j) (p.frames j)).2 } hrunning
      (hwaiting.arrive _ _) fun _ => hset
    rw [run_cons hrunning, turn_packet hpacket, takePacket_eq, hkeep, hseq, hframe,
      playerCommands_append, playerCommands_deliver hplayer, hout, JitterBuffer.arriveOrder,
      List.map_append]
    exact ⟨hrun, hkept, hbuffer, rfl⟩

/-! ## A passage from its first packet on -/

/-- Just started or just flushed, to wherever the passage starts or to nowhere in particular. -/
structure Ready (p : Passage) (task : Task) : Prop where
  running : task.running = true
  unanchored : task.anchor = none
  maxLead : task.jitter.maxLead = Jitter.maxLead
  reset : ∃ start, (start = none ∨ start = some p.firstSeq) ∧ task.jitter = task.jitter.reset start

theorem ready_new (p : Passage) : p.Ready .new := ⟨rfl, rfl, rfl, none, .inl rfl, rfl⟩

/-- The first packet starts the buffer at itself. -/
theorem arrive_reset {jb : JitterBuffer Bytes} {start : Option U16} {n : U16}
    (hstart : start = none ∨ start = some n) (frame : Bytes) :
    (jb.reset start).arrive n frame = (jb.reset (some n)).arrive n frame := by
  rcases hstart with rfl | rfl
  · rfl
  · rfl

/-- In any order the jitter buffer allows, the packets come out in the sender's. -/
theorem arriveOrder_reset (p : Passage) {jb : JitterBuffer Bytes}
    (hlead : jb.maxLead = Jitter.maxLead) {order : List Nat}
    (horder : Order Jitter.maxLead p.count order) :
    ((jb.reset (some p.firstSeq)).arriveOrder p.firstSeq p.frames order).1 =
        (List.range p.count).map (fun i => .packet (place p.firstSeq i) (p.frames i)) ∧
      ((jb.reset (some p.firstSeq)).arriveOrder p.firstSeq p.frames order).2.maxLead =
        Jitter.maxLead := by
  have htracks : TracksFrom p.firstSeq (jb.reset (some p.firstSeq)) [] :=
    tracksFrom_nil rfl rfl (JitterBuffer.lookup_reset jb _)
  have hnil : Filed p.firstSeq 0 Jitter.maxLead p.frames [] (jb.reset (some p.firstSeq)) [] := by
    rw [← hlead]
    exact .nil htracks rfl (by simp [events])
  have hwhole : Order Jitter.maxLead p.count (order ++ []) := by rwa [List.append_nil]
  obtain ⟨log, hfiled, hout⟩ := hnil.run (by decide) hwhole
  have hall := hfiled.deliveries_eq (by rfl) hout
  rw [place_zero, horder.awaited_eq] at hall
  rw [place_zero] at hfiled
  exact ⟨hall, hfiled.maxLead⟩

theorem run_received (h : Inverts encryptBlock decryptBlock) (hplayer : cfg.player = true)
    {inputs : List Input} (hreceived : p.Received encryptBlock cfg inputs) {task : Task}
    (hready : p.Ready task) :
    (task.run decryptBlock cfg inputs).1.running = true ∧
      (task.run decryptBlock cfg inputs).1.jitter.maxLead = Jitter.maxLead ∧
      playerCommands (task.run decryptBlock cfg inputs).2 = p.commands cfg := by
  obtain ⟨start, hstart, hreset⟩ := hready.reset
  have hwaiting : Waiting task.jitter := hreset ▸ waiting_reset task.jitter start
  cases hreceived with
  | nothing hcount harrives =>
    obtain ⟨hrun, -, hbuffer, hout⟩ := run_arrives h hplayer harrives (by simp) hready.running
      hwaiting fun hne => absurd rfl hne
    refine ⟨hrun, by rw [hbuffer]; exact hready.maxLead, ?_⟩
    rw [hout, commands, hcount]
    rfl
  | @stream order before after horder hbefore hlen hafter =>
    have hzero : 0 < p.count := (horder.covers 0).mp List.mem_cons_self
    obtain ⟨hrun, hunanchored, hbuffer, hout⟩ := run_arrives h hplayer hbefore (by simp)
      hready.running hwaiting fun hne => absurd rfl hne
    rw [run_append]
    generalize task.run decryptBlock cfg before = ran at hrun hunanchored hbuffer hout
    obtain ⟨packet, hpacket, hseq, hts, hframe⟩ :=
      (Brings.socket hlen : p.Brings encryptBlock cfg 0 _).packet h hzero
    have hsocket : Input.socketPacket? (.audio (p.datagram encryptBlock cfg 0)) = some packet :=
      hpacket
    have hanchor : Input.anchored ran.1.anchor (.audio (p.datagram encryptBlock cfg 0)) =
        some (p.firstSeq, p.firstTs) := by
      rw [hunanchored, hready.unanchored, Input.anchored, hsocket, Option.map_some, hseq, hts]
      simp
    change ran.1.jitter = task.jitter at hbuffer
    change playerCommands ran.2 = [] at hout
    have hfirst : (task.jitter.reset (some p.firstSeq)).arrive p.firstSeq (p.frames 0) =
        task.jitter.arrive p.firstSeq (p.frames 0) := by
      rw [hreset]
      exact (arrive_reset hstart (p.frames 0)).symm
    obtain ⟨hall, hlead⟩ := arriveOrder_reset p hready.maxLead horder
    simp only [JitterBuffer.arriveOrder, place_zero, hfirst] at hall hlead
    have hrest : ∀ j ∈ order, j < p.count := fun j hj =>
      (horder.covers j).mp (List.mem_cons_of_mem _ hj)
    set next : Task := { ran.1 with
      anchor := some (p.firstSeq, p.firstTs)
      jitter := (task.jitter.arrive p.firstSeq (p.frames 0)).2 } with hnext
    have hrunning : next.running = true := hrun
    obtain ⟨hdone, -, hlast, hmore⟩ := run_arrives h hplayer hafter hrest hrunning
      (hwaiting.arrive _ _) fun _ => rfl
    have hstep : ran.1.turn decryptBlock cfg (.audio (p.datagram encryptBlock cfg 0)) =
        (next, (task.jitter.arrive p.firstSeq (p.frames 0)).1.flatMap
          (deliver cfg (some (p.firstSeq, p.firstTs)))) := by
      rw [turn_packet hpacket, takePacket_eq, hanchor, hseq, hframe, place_zero, hbuffer]
    rw [run_cons hrun, hstep, playerCommands_append, playerCommands_append, hout, hmore,
      List.nil_append, playerCommands_deliver hplayer, ← List.map_append]
    refine ⟨hdone, by rw [hlast, hlead], ?_⟩
    rw [hall, commands, List.map_map]
    rfl

variable (decryptBlock cfg) in
theorem ready_flush (q : Passage) {task : Task} (hrunning : task.running = true)
    (hlead : task.jitter.maxLead = Jitter.maxLead) {flushTo : Option U16}
    (hto : flushTo = none ∨ flushTo = some q.firstSeq) :
    q.Ready (task.turn decryptBlock cfg (.flush (some flushTo))).1 :=
  ⟨hrunning, rfl, hlead, flushTo, hto, rfl⟩

/-- The inputs of these passages, each but the first after a flush. -/
inductive Streamed (encryptBlock : Block → Bytes → Bytes) (cfg : Config) :
    List Passage → List Input → Prop where
  | last {p : Passage} {inputs : List Input} :
    p.Received encryptBlock cfg inputs → Streamed encryptBlock cfg [p] inputs
  | flushed {p q : Passage} {rest : List Passage} {inputs more : List Input}
    {flushTo : Option U16} :
    p.Received encryptBlock cfg inputs → flushTo = none ∨ flushTo = some q.firstSeq →
      Streamed encryptBlock cfg (q :: rest) more →
      Streamed encryptBlock cfg (p :: q :: rest) (inputs ++ .flush (some flushTo) :: more)

theorem run_streamed (h : Inverts encryptBlock decryptBlock) (hplayer : cfg.player = true)
    {passages : List Passage} {inputs : List Input}
    (hstreamed : Streamed encryptBlock cfg passages inputs) {task : Task}
    (hready : ∀ p, passages.head? = some p → p.Ready task) :
    playerCommands (task.run decryptBlock cfg inputs).2 =
      [.flush].intercalate (passages.map (commands cfg)) := by
  induction hstreamed generalizing task with
  | @last p inputs hreceived =>
    rw [(run_received h hplayer hreceived (hready p rfl)).2.2, List.map_singleton,
      List.intercalate_singleton]
  | @flushed p q rest inputs more flushTo hreceived hto _ ih =>
    obtain ⟨hrunning, hlead, hout⟩ := run_received h hplayer hreceived (hready p rfl)
    have hflush := ready_flush decryptBlock cfg q hrunning hlead hto
    have hmore := ih fun r hr => (Option.some.inj hr) ▸ hflush
    rw [run_append, run_cons hrunning, playerCommands_append, playerCommands_append, hout, hmore,
      List.map_cons, List.map_cons, List.map_cons, List.intercalate_cons_cons, List.append_assoc]
    simp [Task.turn, hplayer, playerCommands]

end Passage

end OpenAirplay.Audio
