import OpenAirplay.AudioReceiver

/-!
# Stamps of the frames handed to the player

A delivered frame is stamped from its sequence number and the anchor, not from its own
header. This module says when the two agree over packets arriving in order.
-/

namespace OpenAirplay.Audio

open Jitter Player Rtp SerialNumber Reassembly

set_option autoImplicit false

/-- The packet an input brings in, if it parses as one. -/
def Input.packet? : Input → Option AudioPacket
  | .audio datagram => AudioPacket.parse (datagram.take audioBuffer)
  | .resend (some datagram) => AudioPacket.parse datagram
  | _ => none

/-- Neither a flush nor the end of the task. -/
def Input.Plain : Input → Prop
  | .audio _ | .resend (some _) | .tick _ => True
  | _ => False

/-- The same for the audio socket alone. -/
def Input.socketPacket? : Input → Option AudioPacket
  | .audio datagram => AudioPacket.parse (datagram.take audioBuffer)
  | _ => none

/-- The anchor after an input that is not a flush: set once, by the audio socket. -/
def Input.anchored (anchor : Option (U16 × U32)) (i : Input) : Option (U16 × U32) :=
  anchor <|> i.socketPacket?.map fun p => (p.sequence, p.timestamp)

def packets (inputs : List Input) : List AudioPacket := inputs.filterMap Input.packet?

theorem packet?_of_socketPacket? {i : Input} {p : AudioPacket} (h : i.socketPacket? = some p) :
    i.packet? = some p := by
  cases i with
  | audio datagram => exact h
  | _ => cases h

theorem socketPacket?_eq_none {i : Input} (h : i.packet? = none) : i.socketPacket? = none := by
  cases hs : i.socketPacket? with
  | none => rfl
  | some p => rw [← h, packet?_of_socketPacket? hs]

def stamped (framesPerPacket : U32) (anchor : Option (U16 × U32)) :
    Delivery Bytes → Option (U32 × Bytes)
  | .packet seq frame => some (deriveTs seq anchor framesPerPacket, frame)
  | .lost _ => none

section Turns

variable {decryptBlock : Block → Bytes → Bytes} {cfg : Config}

theorem frames_deliver (hplayer : cfg.player = true) (anchor : Option (U16 × U32))
    (out : List (Delivery Bytes)) :
    frames (out.flatMap (deliver cfg anchor)) =
      out.filterMap (stamped cfg.params.alac.framesPerPacket anchor) := by
  induction out with
  | nil => rfl
  | cons d out ih =>
    rw [List.flatMap_cons, frames_append, ih]
    cases d with
    | packet seq frame =>
      have hobs : frames (if cfg.observer then [Output.observe ⟨seq, deriveTs seq anchor
          cfg.params.alac.framesPerPacket, looksLikeAlacStereo frame, frame⟩] else []) = [] := by
        split <;> rfl
      simp only [deliver, hplayer, if_true, frames_append, hobs]
      rfl
    | lost seq =>
      simp only [deliver, hplayer, if_true]
      rfl

variable (cfg) in
theorem requestResends_spec (task : Task) (now : Nat) :
    (∃ resend, (requestResends cfg task now).1 = { task with resend := resend }) ∧
      frames (requestResends cfg task now).2 = [] := by
  simp only [requestResends]
  split
  · exact ⟨⟨task.resend, rfl⟩, rfl⟩
  · refine ⟨⟨_, rfl⟩, ?_⟩
    simp [frames, List.filterMap_map]

theorem turn_packet {task : Task} {i : Input} {p : AudioPacket} (h : i.packet? = some p) :
    task.turn decryptBlock cfg i =
      takePacket decryptBlock cfg { task with anchor := i.anchored task.anchor } p := by
  cases i with
  | audio datagram =>
    have hparse : AudioPacket.parse (datagram.take audioBuffer) = some p := h
    have hanchor : Input.anchored task.anchor (.audio datagram) =
        some (task.anchor.getD (p.sequence, p.timestamp)) := by
      simp only [Input.anchored, Input.socketPacket?, hparse]
      cases task.anchor <;> rfl
    simp only [Task.turn, hparse, hanchor]
  | resend datagram =>
    cases datagram with
    | none => cases h
    | some datagram =>
      have hparse : AudioPacket.parse datagram = some p := h
      simp [Task.turn, hparse, Input.anchored, Input.socketPacket?]
  | audioError => cases h
  | tick now => cases h
  | flush flushTo => cases h

theorem takePacket_eq (task : Task) (p : AudioPacket) :
    takePacket decryptBlock cfg task p =
      ({ task with jitter := (task.jitter.arrive p.sequence (frameOf decryptBlock cfg p)).2 },
        (task.jitter.arrive p.sequence (frameOf decryptBlock cfg p)).1.flatMap
          (deliver cfg task.anchor)) := rfl

variable (decryptBlock cfg) in
theorem turn_idle {task : Task} {i : Input} (hplain : i.Plain) (h : i.packet? = none)
    (hidle : task.jitter.popReady = ([], task.jitter)) :
    (task.turn decryptBlock cfg i).1.jitter = task.jitter ∧
      (task.turn decryptBlock cfg i).1.anchor = task.anchor ∧
      (task.turn decryptBlock cfg i).1.running = task.running ∧
      frames (task.turn decryptBlock cfg i).2 = [] := by
  cases i with
  | audio datagram =>
    have hparse : AudioPacket.parse (datagram.take audioBuffer) = none := h
    simp [Task.turn, hparse]
  | resend datagram =>
    cases datagram with
    | none => cases hplain
    | some datagram =>
      have hparse : AudioPacket.parse datagram = none := h
      simp [Task.turn, hparse]
  | tick now =>
    have hdrain : drainDeliveries cfg task = (task, []) := by
      simp [drainDeliveries, hidle]
    obtain ⟨⟨resend, htask⟩, hframes⟩ := requestResends_spec cfg task now
    simp only [Task.turn, hdrain, List.nil_append, htask, hframes, and_self]
  | audioError => cases hplain
  | flush flushTo => cases hplain

theorem run_cons {task : Task} (hrunning : task.running = true) (i : Input)
    (inputs : List Input) :
    task.run decryptBlock cfg (i :: inputs) =
      (((task.turn decryptBlock cfg i).1.run decryptBlock cfg inputs).1,
        (task.turn decryptBlock cfg i).2 ++
          ((task.turn decryptBlock cfg i).1.run decryptBlock cfg inputs).2) := by
  simp [Task.run, Task.step, hrunning]

end Turns

/-! ## Packets in order -/

section InOrder

variable {decryptBlock : Block → Bytes → Bytes} {cfg : Config} {s0 : U16} {t0 fpp : U32}

/-- The `k`-th packet of `ps` is the `m + k`-th the sender numbered and stamped. -/
def NumberedFrom (s0 : U16) (t0 fpp : U32) (m : Nat) (ps : List AudioPacket) : Prop :=
  ∀ k p, ps[k]? = some p →
    p.sequence = place s0 (m + k) ∧ p.timestamp = t0 + BitVec.ofNat 32 (m + k) * fpp

theorem numberedFrom_cons {m : Nat} {p : AudioPacket} {ps : List AudioPacket} :
    NumberedFrom s0 t0 fpp m (p :: ps) ↔
      (p.sequence = place s0 m ∧ p.timestamp = t0 + BitVec.ofNat 32 m * fpp) ∧
        NumberedFrom s0 t0 fpp (m + 1) ps := by
  constructor
  · intro h
    refine ⟨h 0 p rfl, ?_⟩
    intro k q hq
    have hk := h (k + 1) q hq
    rwa [show m + (k + 1) = m + 1 + k by omega] at hk
  · rintro ⟨hp, hps⟩ k q hq
    cases k with
    | zero =>
      cases hq
      exact hp
    | succ k =>
      have hk := hps k q hq
      rwa [show m + 1 + k = m + (k + 1) by omega] at hk

theorem NumberedFrom.of_append {m : Nat} {ps qs : List AudioPacket}
    (h : NumberedFrom s0 t0 fpp m (ps ++ qs)) : NumberedFrom s0 t0 fpp (m + ps.length) qs := by
  intro k q hq
  have hk := h (ps.length + k) q (by rwa [List.getElem?_append_right (by omega),
    Nat.add_sub_cancel_left])
  rwa [← Nat.add_assoc] at hk

theorem NumberedFrom.rebase {m : Nat} {ps : List AudioPacket} (h : NumberedFrom s0 t0 fpp m ps) :
    NumberedFrom (place s0 m) (t0 + BitVec.ofNat 32 m * fpp) fpp 0 ps := by
  intro k p hp
  obtain ⟨hseq, hts⟩ := h k p hp
  rw [Nat.zero_add]
  refine ⟨hseq.trans (place_add s0 m k), ?_⟩
  rw [hts, BitVec.ofNat_add, add_mul, add_assoc]

/-- A run without a flush whose packets arrive in the sender's order. -/
structure InOrder (s0 : U16) (t0 fpp : U32) (inputs : List Input) : Prop where
  plain : ∀ i ∈ inputs, i.Plain
  numbered : NumberedFrom s0 t0 fpp 0 (packets inputs)

/-- The packets of a run, each with the anchor it finds or sets. -/
def arrivals (anchor : Option (U16 × U32)) :
    List Input → List (Option (U16 × U32) × AudioPacket)
  | [] => []
  | i :: inputs =>
    (i.packet?.map (i.anchored anchor, ·)).toList ++ arrivals (i.anchored anchor) inputs

/-- In step with the sender, every packet is delivered as it comes. -/
theorem frames_inStep (hplayer : cfg.player = true) {task : Task} {m : Nat}
    (hrunning : task.running = true) (hstep : InStep s0 m task.jitter) {inputs : List Input}
    (hplain : ∀ i ∈ inputs, i.Plain) (hnum : NumberedFrom s0 t0 fpp m (packets inputs)) :
    frames (task.run decryptBlock cfg inputs).2 = (arrivals task.anchor inputs).map fun ap =>
      (deriveTs ap.2.sequence ap.1 cfg.params.alac.framesPerPacket,
        frameOf decryptBlock cfg ap.2) := by
  induction inputs generalizing task m with
  | nil => rfl
  | cons i inputs ih =>
    have hplain' : ∀ i ∈ inputs, i.Plain := fun j hj => hplain j (List.mem_cons_of_mem i hj)
    rw [run_cons hrunning]
    cases hp : i.packet? with
    | none =>
      have hpackets : packets (i :: inputs) = packets inputs := by simp [packets, hp]
      obtain ⟨hjitter, hanchor, hrunning', hframes⟩ := turn_idle decryptBlock cfg
        (hplain i List.mem_cons_self) hp hstep.popReady
      have hsame : i.anchored task.anchor = task.anchor := by
        rw [Input.anchored, socketPacket?_eq_none hp]
        cases task.anchor <;> rfl
      rw [hpackets] at hnum
      rw [frames_append, hframes, List.nil_append, arrivals, hp, hsame,
        ih (hrunning'.trans hrunning) (hjitter ▸ hstep) hplain' hnum, hanchor]
      rfl
    | some p =>
      have hpackets : packets (i :: inputs) = p :: packets inputs := by simp [packets, hp]
      rw [hpackets, numberedFrom_cons] at hnum
      obtain ⟨⟨hseq, _⟩, hnum⟩ := hnum
      obtain ⟨hout, hstep'⟩ := hstep.arrive (frameOf decryptBlock cfg p)
      have htail := @ih
        { task with
          jitter := (task.jitter.arrive (place s0 m) (frameOf decryptBlock cfg p)).2
          anchor := i.anchored task.anchor }
        (m + 1) hrunning hstep' hplain' hnum
      rw [turn_packet hp, takePacket_eq, frames_append, frames_deliver hplayer]
      simp only [hseq, hout, htail, arrivals, hp]
      simp [stamped, hseq]

/-- The packets before the first one on the audio socket: resend replies, all of them. -/
def beforeAnchor (inputs : List Input) : List AudioPacket :=
  packets (inputs.takeWhile fun i => i.socketPacket?.isNone)

/-- The packets from the first one on the audio socket on. -/
def fromAnchor (inputs : List Input) : List AudioPacket :=
  packets (inputs.dropWhile fun i => i.socketPacket?.isNone)

theorem packets_eq_before_from (inputs : List Input) :
    packets inputs = beforeAnchor inputs ++ fromAnchor inputs := by
  rw [beforeAnchor, fromAnchor, packets, packets, packets, ← List.filterMap_append,
    List.takeWhile_append_dropWhile]

theorem arrivals_snd (anchor : Option (U16 × U32)) (inputs : List Input) :
    (arrivals anchor inputs).map Prod.snd = packets inputs := by
  induction inputs generalizing anchor with
  | nil => rfl
  | cons i inputs ih =>
    rw [arrivals, List.map_append, ih]
    cases hp : i.packet? <;> simp [packets, hp]

theorem arrivals_anchored (a : U16 × U32) (inputs : List Input) :
    arrivals (some a) inputs = (packets inputs).map (some a, ·) := by
  induction inputs with
  | nil => rfl
  | cons i inputs ih =>
    have hkeep : i.anchored (some a) = some a := rfl
    rw [arrivals, hkeep, ih]
    cases hp : i.packet? <;> simp [packets, hp]

/-- Up to the anchor there is none; the first packet on the audio socket is it. -/
theorem arrivals_unanchored (inputs : List Input) :
    arrivals none inputs = (beforeAnchor inputs).map (none, ·) ++
      (fromAnchor inputs).map
        ((fromAnchor inputs).head?.map fun a => (a.sequence, a.timestamp), ·) := by
  induction inputs with
  | nil => rfl
  | cons i inputs ih =>
    cases hsocket : i.socketPacket? with
    | none =>
      have hnone : i.anchored none = none := by simp [Input.anchored, hsocket]
      have hbefore : beforeAnchor (i :: inputs) = i.packet?.toList ++ beforeAnchor inputs := by
        cases hp : i.packet? <;> simp [beforeAnchor, packets, hsocket, hp]
      have hfrom : fromAnchor (i :: inputs) = fromAnchor inputs := by
        simp [fromAnchor, hsocket]
      rw [arrivals, hnone, ih, hbefore, hfrom]
      cases i.packet? <;> simp
    | some p =>
      have hp := packet?_of_socketPacket? hsocket
      have hbefore : beforeAnchor (i :: inputs) = [] := by
        simp [beforeAnchor, packets, hsocket]
      have hfrom : fromAnchor (i :: inputs) = p :: packets inputs := by
        simp [fromAnchor, packets, hsocket, hp]
      have hset : i.anchored none = some (p.sequence, p.timestamp) := by
        simp [Input.anchored, hsocket]
      rw [arrivals, hset, arrivals_anchored, hbefore, hfrom, hp]
      rfl

/-- The stamp of the sender's `k`-th packet once the first one is the anchor. -/
def stampAt (s0 : U16) (t0 fpp : U32) (k : Nat) : U32 := deriveTs (place s0 k) (some (s0, t0)) fpp

theorem stampAt_eq (s0 : U16) (t0 fpp : U32) (k : Nat) :
    stampAt s0 t0 fpp k =
      t0 + BitVec.ofNat 32 (max ((k : Int).bmod (2 ^ 16)) 0).toNat * fpp := by
  obtain ⟨n, hn⟩ := Int.eq_ofNat_of_zero_le (le_max_right ((k : Int).bmod (2 ^ 16)) 0)
  simp only [stampAt, deriveTs, seqDiff, diff_place_base, hn, BitVec.ofInt_natCast]
  rfl

theorem stampAt_of_lt (s0 : U16) (t0 fpp : U32) {k : Nat} (h : k < 2 ^ 15) :
    stampAt s0 t0 fpp k = t0 + BitVec.ofNat 32 k * fpp := by
  have hk : (k : Int).bmod (2 ^ 16) = k := bmod_of_half (by omega) (by omega)
  rw [stampAt_eq, hk, max_eq_left (by omega), Int.toNat_natCast]

theorem stampAt_of_half (s0 : U16) (t0 fpp : U32) {k : Nat} (hlo : 2 ^ 15 ≤ k) (hhi : k < 2 ^ 16) :
    stampAt s0 t0 fpp k = t0 := by
  have hk := diff_place_of_wrapped s0 (i := k) (j := 0) (by omega) (by omega)
  rw [place_zero, diff_place_base] at hk
  rw [stampAt_eq, hk, max_eq_right (by push_cast; omega)]
  simp

theorem stampAt_half_iff (s0 : U16) (t0 fpp : U32) :
    stampAt s0 t0 fpp (2 ^ 15) = t0 + BitVec.ofNat 32 (2 ^ 15) * fpp ↔ 2 ^ 17 ∣ fpp.toNat := by
  rw [stampAt_of_half s0 t0 fpp (by omega) (by omega), left_eq_add, ← BitVec.toNat_inj]
  simp only [BitVec.toNat_mul, BitVec.toNat_ofNat, BitVec.ofNat_eq_ofNat, Nat.reducePow,
    Nat.reduceMod]
  omega

/-- All `n` stamps of an in-order run are the headers' own, exactly when the run stays
within half a circle of sequence numbers or the wrapped distance makes no difference. -/
theorem stampAt_all_iff (s0 : U16) (t0 fpp : U32) (n : Nat) :
    (∀ k < n, stampAt s0 t0 fpp k = t0 + BitVec.ofNat 32 k * fpp) ↔
      n ≤ 2 ^ 15 ∨ fpp = 0 ∨ (n = 2 ^ 15 + 1 ∧ 2 ^ 17 ∣ fpp.toNat) := by
  constructor
  · intro h
    by_contra hcon
    simp only [not_or, not_and, not_le] at hcon
    obtain ⟨hn, hfpp, hdvd⟩ := hcon
    have hhalf := (stampAt_half_iff s0 t0 fpp).mp (h _ hn)
    by_cases hn' : n = 2 ^ 15 + 1
    · exact hdvd hn' hhalf
    · have hpast := h (2 ^ 15 + 1) (by omega)
      rw [stampAt_of_half s0 t0 fpp (by omega) (by omega), left_eq_add, ← BitVec.toNat_inj]
        at hpast
      simp only [BitVec.toNat_mul, BitVec.toNat_ofNat, BitVec.ofNat_eq_ofNat, Nat.reducePow,
        Nat.reduceMod, Nat.reduceAdd] at hpast
      have hlt := fpp.isLt
      have hzero : fpp.toNat = 0 := by omega
      exact hfpp (BitVec.eq_of_toNat_eq hzero)
  · rintro (hn | rfl | ⟨rfl, hdvd⟩) k hk
    · exact stampAt_of_lt s0 t0 fpp (by omega)
    · simp [stampAt_eq]
    · by_cases hlt : k < 2 ^ 15
      · exact stampAt_of_lt s0 t0 fpp hlt
      · have hk' : k = 2 ^ 15 := by omega
        rw [hk']
        exact (stampAt_half_iff s0 t0 fpp).mpr hdvd

theorem stamped_from_head_iff {m : Nat} {ps : List AudioPacket} (h : NumberedFrom s0 t0 fpp m ps) :
    (∀ p ∈ ps, deriveTs p.sequence (ps.head?.map fun a => (a.sequence, a.timestamp)) fpp =
        p.timestamp) ↔
      ps.length ≤ 2 ^ 15 ∨ fpp = 0 ∨ (ps.length = 2 ^ 15 + 1 ∧ 2 ^ 17 ∣ fpp.toNat) := by
  cases ps with
  | nil => simp
  | cons first rest =>
    have hfirst := (numberedFrom_cons.mp h).1
    have hnum := h.rebase
    rw [← stampAt_all_iff (place s0 m) (t0 + BitVec.ofNat 32 m * fpp), List.forall_mem_iff_getElem]
    apply forall₂_congr
    intro k hk
    obtain ⟨hseq, hts⟩ := hnum k _ (List.getElem?_eq_getElem hk)
    rw [Nat.zero_add] at hseq hts
    rw [hseq, hts, stampAt, List.head?_cons, Option.map_some, hfirst.1, hfirst.2]

/-- In order and without a flush, every frame carries its own packet's timestamp exactly when
no packet that comes before the anchor needs one and no more than half a circle of sequence
numbers come from it on. -/
theorem stamps_in_order_iff (decryptBlock : Block → Bytes → Bytes) (cfg : Config)
    (hplayer : cfg.player = true) (s0 : U16) (t0 : U32) (inputs : List Input)
    (h : InOrder s0 t0 cfg.params.alac.framesPerPacket inputs) :
    frames (Task.new.run decryptBlock cfg inputs).2 =
        (packets inputs).map (fun p => (p.timestamp, frameOf decryptBlock cfg p)) ↔
      (∀ p ∈ beforeAnchor inputs, p.timestamp = 0) ∧
        ((fromAnchor inputs).length ≤ 2 ^ 15 ∨ cfg.params.alac.framesPerPacket = 0 ∨
          ((fromAnchor inputs).length = 2 ^ 15 + 1 ∧
            2 ^ 17 ∣ cfg.params.alac.framesPerPacket.toNat)) := by
  have hnum := h.numbered
  rw [packets_eq_before_from] at hnum
  have hbefore : ∀ p ∈ beforeAnchor inputs,
      deriveTs p.sequence none cfg.params.alac.framesPerPacket = p.timestamp ↔ p.timestamp = 0 :=
    fun p _ => eq_comm
  have hframes := @frames_inStep decryptBlock cfg _ _ _ hplayer Task.new 0 rfl
    (InStep.new (by decide)) inputs h.plain h.numbered
  change _ = (arrivals none inputs).map _ at hframes
  rw [hframes, ← arrivals_snd none inputs, List.map_map, List.map_inj_left,
    ← stamped_from_head_iff hnum.of_append, ← forall₂_congr hbefore]
  rw [arrivals_unanchored, List.forall_mem_append, List.forall_mem_map, List.forall_mem_map]
  simp only [Function.comp_apply, Prod.mk.injEq, and_true]

/-- A sender of `n` packets, as its datagrams arrive on the audio socket. -/
def sender (s0 : U16) (t0 fpp : U32) (n : Nat) : List Input :=
  (List.range n).map fun k =>
    .audio (audioDatagram (place s0 k) (t0 + BitVec.ofNat 32 k * fpp) 0 [0])

theorem socketPacket?_audioDatagram (seq : U16) (ts : U32) {payload : Bytes} (h : payload ≠ [])
    (hlen : payload.length + 12 ≤ audioBuffer) :
    Input.socketPacket? (.audio (audioDatagram seq ts 0 payload)) =
      some ⟨seq, ts, false, payload⟩ := by
  rw [← parse_audioDatagram seq ts 0 h, Input.socketPacket?, List.take_of_length_le]
  simp only [audioDatagram, u16ToBe, u32ToBe, List.length_append, List.length_cons, List.length_nil]
  omega

theorem packets_sender (s0 : U16) (t0 fpp : U32) (n : Nat) :
    packets (sender s0 t0 fpp n) =
      (List.range n).map fun k => ⟨place s0 k, t0 + BitVec.ofNat 32 k * fpp, false, [0]⟩ := by
  have hparse : ∀ k : Nat, Input.packet?
      (.audio (audioDatagram (place s0 k) (t0 + BitVec.ofNat 32 k * fpp) 0 [0])) =
        some ⟨place s0 k, t0 + BitVec.ofNat 32 k * fpp, false, [0]⟩ :=
    fun k => socketPacket?_audioDatagram _ _ (by decide) (by decide)
  rw [packets, sender, List.filterMap_map, ← List.filterMap_eq_map]
  exact congrArg (List.filterMap · _) (funext hparse)

theorem inOrder_sender (s0 : U16) (t0 fpp : U32) (n : Nat) :
    InOrder s0 t0 fpp (sender s0 t0 fpp n) := by
  constructor
  · intro i hi
    obtain ⟨k, _, rfl⟩ := List.mem_map.mp hi
    trivial
  · intro k p hp
    rw [packets_sender, List.getElem?_map] at hp
    obtain ⟨j, hj, rfl⟩ := Option.map_eq_some_iff.mp hp
    obtain ⟨hk, rfl⟩ := List.getElem?_eq_some_iff.mp hj
    simp

theorem arrivals_sender (s0 : U16) (t0 fpp : U32) {n : Nat} (hn : 0 < n) :
    arrivals none (sender s0 t0 fpp n) =
      (packets (sender s0 t0 fpp n)).map (some (s0, t0), ·) := by
  obtain ⟨n, rfl⟩ := Nat.exists_eq_succ_of_ne_zero hn.ne'
  have hsocket := socketPacket?_audioDatagram s0 t0 (by decide : ([0] : Bytes) ≠ []) (by decide)
  have hfirst : sender s0 t0 fpp (n + 1) = .audio (audioDatagram s0 t0 0 [0]) ::
      (sender s0 t0 fpp (n + 1)).tail := by
    simp [sender, List.range_succ_eq_map]
  have hset : Input.anchored none (.audio (audioDatagram s0 t0 0 [0])) = some (s0, t0) := by
    rw [Input.anchored, hsocket]
    rfl
  have hp := packet?_of_socketPacket? hsocket
  rw [hfirst, arrivals, hset, arrivals_anchored, packets, packets, List.filterMap_cons_some hp, hp]
  rfl

end InOrder

/-- 44.1 kHz ALAC in the clear, for one client. -/
def exampleConfig : Config where
  params :=
    { encrypted := false
      key := .replicate 16 0
      iv := .replicate 16 0
      alac := ⟨352, 16, 2, 44100, #v[96, 352, 0, 16, 40, 10, 14, 2, 255, 0, 0, 44100]⟩ }
  player := true
  observer := false
  clientControl := ⟨.v4 (.replicate 4 0), 6001⟩

theorem stamps_in_order_three :
    frames (Task.new.run (fun _ b => b) exampleConfig (sender 65534 7 352 3)).2 =
        (packets (sender 65534 7 352 3)).map
          (fun p => (p.timestamp, frameOf (fun _ b => b) exampleConfig p)) ↔
      (∀ p ∈ beforeAnchor (sender 65534 7 352 3), p.timestamp = 0) ∧
        ((fromAnchor (sender 65534 7 352 3)).length ≤ 2 ^ 15 ∨
          exampleConfig.params.alac.framesPerPacket = 0 ∨
          ((fromAnchor (sender 65534 7 352 3)).length = 2 ^ 15 + 1 ∧
            2 ^ 17 ∣ exampleConfig.params.alac.framesPerPacket.toNat)) :=
  stamps_in_order_iff (fun _ b => b) exampleConfig rfl 65534 7 (sender 65534 7 352 3)
    (inOrder_sender 65534 7 352 3)

/-- After 2^15 packets in order, the next one is stamped as the first was. -/
theorem stamp_falls_back :
    InOrder 0 0 exampleConfig.params.alac.framesPerPacket (sender 0 0 352 (2 ^ 15 + 1)) ∧
      (packets (sender 0 0 352 (2 ^ 15 + 1)))[2 ^ 15]? =
        some ⟨2 ^ 15, 2 ^ 15 * 352, false, [0]⟩ ∧
      (frames (Task.new.run (fun _ b => b) exampleConfig (sender 0 0 352 (2 ^ 15 + 1))).2)[2 ^ 15]? =
        some (0, [0]) ∧
      (0 : U32) ≠ 2 ^ 15 * 352 := by
  have hin := inOrder_sender 0 0 352 (2 ^ 15 + 1)
  have hget : (packets (sender 0 0 352 (2 ^ 15 + 1)))[2 ^ 15]? =
      some ⟨2 ^ 15, 2 ^ 15 * 352, false, [0]⟩ := by
    rw [packets_sender, List.getElem?_map, List.getElem?_range (by omega), Option.map_some]
    decide
  have hframes := @frames_inStep (fun _ b => b) exampleConfig _ _ _ rfl Task.new 0 rfl
    (InStep.new (by decide)) _ hin.plain hin.numbered
  change _ = (arrivals none _).map _ at hframes
  refine ⟨hin, hget, ?_, by decide⟩
  rw [hframes, arrivals_sender 0 0 352 (by omega), List.getElem?_map, List.getElem?_map, hget]
  rfl

end OpenAirplay.Audio
