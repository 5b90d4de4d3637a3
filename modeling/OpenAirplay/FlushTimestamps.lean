import OpenAirplay.Timestamps

/-!
# Stamps after a flush

A flush forgets the anchor, and the next packet on the audio socket sets it anew, whether
the jitter buffer keeps it or not. Whatever arrives then, and in whatever order: which of the
packets handed over are stamped as their headers are.
-/

namespace OpenAirplay.Audio

open Jitter Player Rtp SerialNumber Reassembly

set_option autoImplicit false

section Flush

variable {decryptBlock : Block → Bytes → Bytes} {cfg : Config}

/-- What an input asks of the jitter buffer, with whole packets for frames. -/
def Input.calls (i : Input) : List (Call AudioPacket) :=
  match i, i.packet? with
  | .tick _, _ => [.popReady]
  | .flush (some flushTo), _ => [.reset flushTo]
  | _, some p => [.insert p.sequence p, .popReady]
  | _, none => []

/-- The buffer over the inputs since a FLUSH, keeping each packet with its header. -/
def period (flushTo : Option U16) (inputs : List Input) : Segment AudioPacket :=
  Segment.run ⟨JitterBuffer.default.reset flushTo, flushTo, []⟩ (inputs.flatMap Input.calls)

def handedOver (flushTo : Option U16) (inputs : List Input) : List AudioPacket :=
  (deliveries (period flushTo inputs).log).filterMap Delivery.frame?

/-- The packets handed over at the turn of input `n`. -/
def handedAt (flushTo : Option U16) (inputs : List Input) (n : Nat) : List AudioPacket :=
  (handedOver flushTo (inputs.take (n + 1))).drop (handedOver flushTo (inputs.take n)).length

/-- The `k`-th packet of a sender that numbers from `s0` and stamps from `t0`. -/
structure OnTimeline (s0 : U16) (t0 fpp : U32) (p : AudioPacket) (k : Nat) : Prop where
  lt : k < 2 ^ 15
  sequence : p.sequence = place s0 k
  timestamp : p.timestamp = t0 + BitVec.ofNat 32 k * fpp

/-- The first packet parsed on the audio socket; it becomes the anchor. -/
def firstOnSocket (inputs : List Input) : Option AudioPacket :=
  inputs.findSome? Input.socketPacket?

/-- `p` is on the timeline that begins with the anchor; or else, by chance, its timestamp is the
one that a packet without an anchor is given, or one numbered before the anchor. -/
def OwnStamp (fpp : U32) (anchor : Option AudioPacket) (p : AudioPacket) : Prop :=
  match anchor with
  | none => p.timestamp = 0
  | some a => (∃ k, OnTimeline a.sequence a.timestamp fpp p k) ∨
      (seqDiff p.sequence a.sequence < 0 ∧ p.timestamp = a.timestamp)

theorem onTimeline_iff {a p : AudioPacket} {fpp : U32} :
    (∃ k, OnTimeline a.sequence a.timestamp fpp p k) ↔ 0 ≤ seqDiff p.sequence a.sequence ∧
      p.timestamp =
        a.timestamp + BitVec.ofNat 32 (seqDiff p.sequence a.sequence).toNat * fpp := by
  constructor
  · rintro ⟨k, hk⟩
    have hlt := hk.lt
    have hdiff : seqDiff p.sequence a.sequence = k := by
      rw [hk.sequence, seqDiff, diff_place_base]
      exact bmod_of_half (by omega) (by omega)
    rw [hdiff, Int.toNat_natCast]
    exact ⟨Int.natCast_nonneg k, hk.timestamp⟩
  · rintro ⟨hahead, hts⟩
    refine ⟨(seqDiff p.sequence a.sequence).toNat, ?_, (place_diff hahead).symm, hts⟩
    have hhalf := BitVec.toInt_lt (x := p.sequence - a.sequence)
    unfold seqDiff diff at hahead ⊢
    omega

/-- The stamp is counted from the anchor, and never backwards. -/
theorem deriveTs_eq_iff {fpp : U32} {anchor : Option AudioPacket} {p : AudioPacket} :
    deriveTs p.sequence (anchor.map fun a => (a.sequence, a.timestamp)) fpp = p.timestamp ↔
      OwnStamp fpp anchor p := by
  cases anchor with
  | none => exact eq_comm
  | some a =>
    simp only [OwnStamp, Option.map_some, deriveTs, onTimeline_iff]
    rcases le_or_gt 0 (seqDiff p.sequence a.sequence) with hahead | hbehind
    · have hcast : BitVec.ofInt 32 (seqDiff p.sequence a.sequence) =
          BitVec.ofNat 32 (seqDiff p.sequence a.sequence).toNat := by
        rw [← BitVec.ofInt_natCast, Int.toNat_of_nonneg hahead]
      rw [max_eq_left hahead, hcast, eq_comm]
      simp [hahead, not_lt.mpr hahead]
    · rw [max_eq_right hbehind.le, eq_comm]
      simp [hbehind, not_le.mpr hbehind]

instance (fpp : U32) (anchor : Option AudioPacket) (p : AudioPacket) :
    Decidable (OwnStamp fpp anchor p) :=
  decidable_of_iff _ deriveTs_eq_iff

theorem firstOnSocket_snoc (inputs : List Input) (i : Input) :
    firstOnSocket (inputs ++ [i]) = (firstOnSocket inputs).or i.socketPacket? := by
  simp only [firstOnSocket, List.findSome?_append, List.findSome?_cons, List.findSome?_nil]
  cases i.socketPacket? <;> rfl

theorem period_snoc (flushTo : Option U16) (inputs : List Input) (i : Input) :
    period flushTo (inputs ++ [i]) = (period flushTo inputs).run i.calls := by
  simp [period, Segment.run, List.flatMap_append, List.foldl_append]

theorem period_tracks (flushTo : Option U16) (inputs : List Input) :
    (period flushTo inputs).Tracks :=
  Segment.tracks_run (Segment.tracks_reset JitterBuffer.default flushTo) _

theorem run_snoc {task : Task} (inputs : List Input) (i : Input) :
    task.run decryptBlock cfg (inputs ++ [i]) =
      ((Task.step decryptBlock cfg (task.run decryptBlock cfg inputs).1 i).1,
        (task.run decryptBlock cfg inputs).2 ++
          (Task.step decryptBlock cfg (task.run decryptBlock cfg inputs).1 i).2) := by
  induction inputs generalizing task with
  | nil => simp [Task.run]
  | cons j inputs ih => simp [Task.run, ih]

/-- A packet as it is handed to the player, stamped from the anchor. -/
def restamped (decryptBlock : Block → Bytes → Bytes) (cfg : Config) (anchor : Option AudioPacket)
    (p : AudioPacket) : U32 × Bytes :=
  (deriveTs p.sequence (anchor.map fun a => (a.sequence, a.timestamp))
    cfg.params.alac.framesPerPacket, frameOf decryptBlock cfg p)

/-- The task since a FLUSH, beside the record of its packets. -/
structure FollowsFlush (f : AudioPacket → Bytes) (seen : List Input) (task : Task)
    (seg : Segment AudioPacket) : Prop where
  running : task.running = true
  jitter : task.jitter = seg.buffer.map f
  anchor : task.anchor = (firstOnSocket seen).map fun p => (p.sequence, p.timestamp)
  tracks : seg.Tracks
  idle : seg.buffer.popReady = ([], seg.buffer)
  accepted : ∀ pos seq p, Entry.accepted pos seq p ∈ seg.log → seq = p.sequence

namespace FollowsFlush

variable {f : AudioPacket → Bytes} {seen : List Input} {task : Task} {seg : Segment AudioPacket}
  {i : Input}

theorem after_flush (task : Task) (hrunning : task.running = true)
    (hlead : task.jitter.maxLead = maxLead) (flushTo : Option U16) :
    FollowsFlush f [] (task.turn decryptBlock cfg (.flush (some flushTo))).1
      (period flushTo []) where
  running := hrunning
  jitter := by
    simp only [period, List.flatMap_nil, Segment.run, List.foldl_nil, JitterBuffer.reset_map]
    simp [Task.turn, JitterBuffer.reset, JitterBuffer.default, JitterBuffer.new,
      JitterBuffer.map, hlead]
  anchor := rfl
  tracks := period_tracks flushTo []
  idle := rfl
  accepted := by simp [period, Segment.run]

theorem calls_idle (hplain : i.Plain) (hp : i.packet? = none) :
    i.calls = [] ∨ i.calls = [.popReady] := by
  cases i with
  | tick now => exact .inr rfl
  | audio d => exact .inl (by simp only [Input.calls, hp])
  | resend d => exact .inl (by simp only [Input.calls, hp])
  | audioError => cases hplain
  | flush flushTo => cases hplain

variable (decryptBlock cfg) in
theorem step_idle (h : FollowsFlush f seen task seg) (hplain : i.Plain)
    (hp : i.packet? = none) :
    FollowsFlush f (seen ++ [i]) (task.turn decryptBlock cfg i).1 (seg.run i.calls) ∧
      frames (task.turn decryptBlock cfg i).2 = [] ∧ seg.run i.calls = seg := by
  have hsame : seg.run i.calls = seg := by
    rcases calls_idle hplain hp with hcalls | hcalls
    · rw [hcalls]
      rfl
    · simp [hcalls, Segment.run, Segment.call, h.idle]
  have hsocket : i.socketPacket? = none := by
    cases i with
    | audio d => exact hp
    | _ => rfl
  have hseen : firstOnSocket (seen ++ [i]) = firstOnSocket seen := by
    rw [firstOnSocket_snoc, hsocket, Option.or_none]
  have hidle : task.jitter.popReady = ([], task.jitter) := by
    rw [h.jitter, JitterBuffer.popReady_map, h.idle]
    rfl
  obtain ⟨hjitter, hanchor, hrunning, hframes⟩ :=
    turn_idle decryptBlock cfg hplain hp hidle
  rw [hsame]
  refine ⟨?_, hframes, rfl⟩
  exact
    { running := hrunning.trans h.running
      jitter := hjitter.trans h.jitter
      anchor := by rw [hanchor, h.anchor, hseen]
      tracks := h.tracks
      idle := h.idle
      accepted := h.accepted }

theorem calls_packet {p : AudioPacket} (hp : i.packet? = some p) :
    i.calls = [.insert p.sequence p, .popReady] := by
  cases i with
  | audio d => simp only [Input.calls, hp]
  | resend d => simp only [Input.calls, hp]
  | audioError => cases hp
  | tick now => cases hp
  | flush flushTo => cases hp

theorem accepted_insert (h : FollowsFlush f seen task seg) (p : AudioPacket)
    {out : List (Delivery AudioPacket)} {pos : Nat} {seq : U16} {q : AudioPacket}
    (hmem : Entry.accepted pos seq q ∈
      (seg.call (.insert p.sequence p)).log ++ out.map .delivered) : seq = q.sequence := by
  have hlog : Entry.accepted pos seq q ∈ (seg.call (.insert p.sequence p)).log := by
    simpa using hmem
  simp only [Segment.call] at hlog
  split at hlog
  · rcases List.mem_append.mp hlog with hold | hnew
    · exact h.accepted pos seq q hold
    · simp only [List.mem_singleton, Entry.accepted.injEq] at hnew
      obtain ⟨-, rfl, rfl⟩ := hnew
      rfl
  · exact h.accepted pos seq q hlog

theorem deliveries_packet {p : AudioPacket} (hp : i.packet? = some p) :
    deliveries (seg.run i.calls).log =
      deliveries seg.log ++ (seg.buffer.arrive p.sequence p).1 := by
  have hins : deliveries (seg.call (.insert p.sequence p)).log = deliveries seg.log := by
    simp only [Segment.call]
    split <;> simp
  rw [calls_packet hp]
  change deliveries ((seg.call (.insert p.sequence p)).log ++
    (seg.buffer.arrive p.sequence p).1.map .delivered) = _
  rw [deliveries_append, hins, deliveries_map_delivered]

theorem anchored_snoc (h : FollowsFlush f seen task seg) :
    i.anchored task.anchor =
      (firstOnSocket (seen ++ [i])).map fun p => (p.sequence, p.timestamp) := by
  rw [h.anchor, Input.anchored, firstOnSocket_snoc]
  cases firstOnSocket seen <;> simp

/-- A packet keeps the correspondence, and what it releases is stamped from the anchor. -/
theorem step_packet (hplayer : cfg.player = true)
    (h : FollowsFlush (frameOf decryptBlock cfg) seen task seg) {p : AudioPacket}
    (hp : i.packet? = some p) :
    FollowsFlush (frameOf decryptBlock cfg) (seen ++ [i]) (task.turn decryptBlock cfg i).1
        (seg.run i.calls) ∧
      ∃ out, deliveries (seg.run i.calls).log = deliveries seg.log ++ out ∧
        frames (task.turn decryptBlock cfg i).2 = (out.filterMap Delivery.frame?).map
          (restamped decryptBlock cfg (firstOnSocket (seen ++ [i]))) := by
  set out := (seg.buffer.arrive p.sequence p).1 with hout
  set seg' := seg.run i.calls with hseg'
  have hrun : seg' = (seg.call (.insert p.sequence p)).call .popReady := by
    rw [hseg', calls_packet hp]
    rfl
  have hlog : seg'.log = (seg.call (.insert p.sequence p)).log ++ out.map .delivered := by
    rw [hrun]
    rfl
  have htracks : seg'.Tracks := Segment.tracks_run h.tracks _
  have hdeliveries : deliveries seg'.log = deliveries seg.log ++ out := deliveries_packet hp
  have haccepted : ∀ pos seq q, Entry.accepted pos seq q ∈ seg'.log → seq = q.sequence :=
    fun pos seq q hmem => h.accepted_insert p (hlog ▸ hmem)
  refine ⟨?_, out, hdeliveries, ?_⟩
  · exact
      { running := by rw [turn_packet hp, takePacket_eq]; exact h.running
        jitter := by
          rw [turn_packet hp, takePacket_eq, hrun]
          simp only [h.jitter, JitterBuffer.arrive_map]
          rfl
        anchor := by rw [turn_packet hp, takePacket_eq]; exact h.anchored_snoc
        tracks := htracks
        idle := by
          rw [hrun]
          exact (Segment.tracks_call h.tracks (.insert p.sequence p)).popReady_idle
        accepted := haccepted }
  · rw [turn_packet hp, takePacket_eq]
    simp only [h.jitter, JitterBuffer.arrive_map, frames_deliver hplayer, h.anchored_snoc]
    rw [List.filterMap_map, List.map_filterMap]
    apply List.filterMap_congr
    intro d hd
    cases d with
    | lost seq => rfl
    | packet seq q =>
      have hd' : Delivery.packet seq q ∈ deliveries seg'.log := by
        rw [hdeliveries]
        exact List.mem_append_right _ hd
      obtain ⟨pos, hpos⟩ := htracks.accepted_of_delivered hd'
      obtain rfl := haccepted pos seq q hpos
      rfl

end FollowsFlush

theorem turn_maxLead (task : Task) (i : Input) :
    (task.turn decryptBlock cfg i).1.jitter.maxLead = task.jitter.maxLead := by
  cases hp : i.packet? with
  | some p =>
    rw [turn_packet hp, takePacket_eq]
    simp [JitterBuffer.arrive]
  | none =>
    cases i with
    | audio d =>
      have hparse : AudioPacket.parse (d.take audioBuffer) = none := hp
      simp [Task.turn, hparse]
    | audioError => rfl
    | resend d =>
      cases d with
      | none => rfl
      | some d =>
        have hparse : AudioPacket.parse d = none := hp
        simp [Task.turn, hparse]
    | tick now =>
      obtain ⟨⟨resend, htask⟩, -⟩ :=
        requestResends_spec cfg (drainDeliveries cfg task).1 now
      simp only [Task.turn, htask]
      simp [drainDeliveries]
    | flush flushTo => cases flushTo <;> rfl

theorem run_maxLead (task : Task) (inputs : List Input) :
    (task.run decryptBlock cfg inputs).1.jitter.maxLead = task.jitter.maxLead := by
  induction inputs generalizing task with
  | nil => rfl
  | cons i inputs ih =>
    rw [Task.run]
    simp only [ih, Task.step]
    split
    · exact turn_maxLead task i
    · rfl

/-- One more input: what it adds to the packets handed over is stamped from the anchor after it. -/
theorem FollowsFlush.step (hplayer : cfg.player = true) {task : Task} {flushTo : Option U16}
    {seen : List Input} (h : FollowsFlush (frameOf decryptBlock cfg) seen
      (task.run decryptBlock cfg seen).1 (period flushTo seen)) {i : Input} (hplain : i.Plain) :
    FollowsFlush (frameOf decryptBlock cfg) (seen ++ [i])
        (task.run decryptBlock cfg (seen ++ [i])).1 (period flushTo (seen ++ [i])) ∧
      ∃ added, handedOver flushTo (seen ++ [i]) = handedOver flushTo seen ++ added ∧
        frames (task.run decryptBlock cfg (seen ++ [i])).2 =
          frames (task.run decryptBlock cfg seen).2 ++
            added.map (restamped decryptBlock cfg (firstOnSocket (seen ++ [i]))) := by
  rw [run_snoc, period_snoc, Task.step, if_pos h.running, frames_append]
  cases hp : i.packet? with
  | none =>
    obtain ⟨hstep, hnone, hsame⟩ := h.step_idle decryptBlock cfg hplain hp
    refine ⟨hstep, [], ?_, ?_⟩
    · rw [handedOver, handedOver, period_snoc, hsame, List.append_nil]
    · rw [hnone]
      rfl
  | some p =>
    obtain ⟨hstep, out, hout, hnew⟩ := h.step_packet hplayer hp
    refine ⟨hstep, out.filterMap Delivery.frame?, ?_, by rw [hnew]⟩
    rw [handedOver, handedOver, period_snoc, hout, List.filterMap_append]

theorem handedAt_snoc {flushTo : Option U16} {seen : List Input} {i : Input}
    {added : List AudioPacket}
    (h : handedOver flushTo (seen ++ [i]) = handedOver flushTo seen ++ added) :
    handedAt flushTo (seen ++ [i]) seen.length = added := by
  have hall : (seen ++ [i]).take (seen.length + 1) = seen ++ [i] :=
    List.take_of_length_le (by simp)
  rw [handedAt, hall, List.take_left, h, List.drop_left]

theorem handedAt_of_lt {flushTo : Option U16} {seen : List Input} {i : Input} {n : Nat}
    (h : n < seen.length) : handedAt flushTo (seen ++ [i]) n = handedAt flushTo seen n := by
  rw [handedAt, handedAt, List.take_append_of_le_length h, List.take_append_of_le_length h.le]

theorem map_restamped_iff {anchor : Option AudioPacket} {ps : List AudioPacket} :
    ps.map (restamped decryptBlock cfg anchor) =
        ps.map (fun p => (p.timestamp, frameOf decryptBlock cfg p)) ↔
      ∀ p ∈ ps, OwnStamp cfg.params.alac.framesPerPacket anchor p := by
  rw [List.map_inj_left]
  apply forall₂_congr
  intro p _
  rw [restamped, Prod.mk.injEq, deriveTs_eq_iff]
  exact and_iff_left rfl

/-- Everything handed over since a flush has been stamped, and rightly so as far as each packet
has its own stamp. -/
theorem followsFlush_run (hplayer : cfg.player = true) {task : Task} {flushTo : Option U16}
    (hstart : FollowsFlush (frameOf decryptBlock cfg) [] task (period flushTo []))
    {inputs : List Input} (hplain : ∀ i ∈ inputs, i.Plain) :
    FollowsFlush (frameOf decryptBlock cfg) inputs (task.run decryptBlock cfg inputs).1
        (period flushTo inputs) ∧
      (frames (task.run decryptBlock cfg inputs).2).length =
        (handedOver flushTo inputs).length ∧
      (frames (task.run decryptBlock cfg inputs).2 = (handedOver flushTo inputs).map
          (fun p => (p.timestamp, frameOf decryptBlock cfg p)) ↔
        ∀ n < inputs.length, ∀ p ∈ handedAt flushTo inputs n,
          OwnStamp cfg.params.alac.framesPerPacket (firstOnSocket (inputs.take (n + 1))) p) := by
  induction inputs using List.reverseRecOn with
  | nil => exact ⟨hstart, rfl, fun _ n hn => absurd hn (Nat.not_lt_zero n), fun _ => rfl⟩
  | append_singleton seen i ih =>
    obtain ⟨hfollows, hlength, hiff⟩ := ih fun j hj => hplain j (List.mem_append_left _ hj)
    obtain ⟨hstep, added, hadded, hframes⟩ :=
      hfollows.step hplayer (hplain i (by simp))
    refine ⟨hstep, ?_, ?_⟩
    · rw [hframes, hadded, List.length_append, List.length_append, List.length_map, hlength]
    · have hall : (seen ++ [i]).take (seen.length + 1) = seen ++ [i] :=
        List.take_of_length_le (by simp)
      have hsame : (frames (task.run decryptBlock cfg seen).2).length =
          ((handedOver flushTo seen).map
            fun p => (p.timestamp, frameOf decryptBlock cfg p)).length := by
        rw [List.length_map, hlength]
      rw [hframes, hadded, List.map_append, List.append_eq_append_iff_of_size_eq_left hsame, hiff,
        map_restamped_iff, List.length_append, List.length_singleton, Nat.forall_lt_succ_right,
        handedAt_snoc hadded, hall]
      refine and_congr_left fun _ => forall₂_congr fun n hn => ?_
      rw [handedAt_of_lt hn, List.take_append_of_le_length hn]

/-- Whatever arrives after a flush, and in whatever order, all packets are handed to the player
with the timestamps of their own headers exactly when each of them is on the timeline that begins
with the anchor of its turn, or has the stamp it is given by chance. -/
theorem stamps_after_flush_iff (decryptBlock : Block → Bytes → Bytes) (cfg : Config)
    (hplayer : cfg.player = true) (before inputs : List Input) (flushTo : Option U16)
    (hrunning : (Task.new.run decryptBlock cfg before).1.running = true)
    (hplain : ∀ i ∈ inputs, i.Plain) :
    frames ((Task.new.run decryptBlock cfg (before ++ [.flush (some flushTo)])).1.run
        decryptBlock cfg inputs).2 =
        (handedOver flushTo inputs).map (fun p => (p.timestamp, frameOf decryptBlock cfg p)) ↔
      ∀ n < inputs.length, ∀ p ∈ handedAt flushTo inputs n,
        OwnStamp cfg.params.alac.framesPerPacket (firstOnSocket (inputs.take (n + 1))) p := by
  have hflush : (Task.new.run decryptBlock cfg (before ++ [.flush (some flushTo)])).1 =
      (Task.turn decryptBlock cfg (Task.new.run decryptBlock cfg before).1
        (.flush (some flushTo))).1 := by
    rw [run_snoc, Task.step, if_pos hrunning]
  rw [hflush]
  exact (followsFlush_run hplayer
    (FollowsFlush.after_flush _ hrunning (run_maxLead Task.new before) flushTo) hplain).2.2

end Flush

/-- FLUSH to 10. Packet 9 is still in flight and becomes the anchor, though the jitter buffer
drops it; 12 overtakes the others, and 11 is resent. -/
def afterFlushTo10 : List Input :=
  [.audio (audioDatagram 9 0 0 [9]), .audio (audioDatagram 12 1056 0 [12]),
    .audio (audioDatagram 10 352 0 [10]), .tick 80000000,
    .resend (some (audioDatagram 11 704 0 [11]))]

theorem stamps_after_flush_overtaken :
    handedOver (some 10) afterFlushTo10 =
        [⟨10, 352, false, [10]⟩, ⟨11, 704, false, [11]⟩, ⟨12, 1056, false, [12]⟩] ∧
      frames ((Task.new.run (fun _ b => b) exampleConfig
          ([.audio (audioDatagram 7 5000 0 [7])] ++ [.flush (some (some 10))])).1.run
            (fun _ b => b) exampleConfig afterFlushTo10).2 =
        (handedOver (some 10) afterFlushTo10).map
          fun p => (p.timestamp, frameOf (fun _ b => b) exampleConfig p) := by
  refine ⟨by decide +kernel, ?_⟩
  exact (stamps_after_flush_iff (fun _ b => b) exampleConfig rfl
    [.audio (audioDatagram 7 5000 0 [7])] afterFlushTo10 (some 10) (by decide +kernel)
    (by simp [afterFlushTo10, Input.Plain])).mpr (by decide +kernel)

/-- FLUSH to 10, after which packet 11 overtakes packet 10: both are the sender's own, and 10
is handed over with the timestamp of 11. -/
theorem overtaken_packet_misstamped :
    OnTimeline 10 0 exampleConfig.params.alac.framesPerPacket ⟨10, 0, false, [1]⟩ 0 ∧
      OnTimeline 10 0 exampleConfig.params.alac.framesPerPacket ⟨11, 352, false, [2]⟩ 1 ∧
      handedOver (some 10) [.audio (audioDatagram 11 352 0 [2]), .audio (audioDatagram 10 0 0 [1])] =
        [⟨10, 0, false, [1]⟩, ⟨11, 352, false, [2]⟩] ∧
      frames ((Task.new.run (fun _ b => b) exampleConfig [.flush (some (some 10))]).1.run
          (fun _ b => b) exampleConfig
          [.audio (audioDatagram 11 352 0 [2]), .audio (audioDatagram 10 0 0 [1])]).2 =
        [(352, [1]), (352, [2])] := by
  refine ⟨⟨by decide, by decide, by decide⟩, ⟨by decide, by decide, by decide⟩, ?_, ?_⟩
  · decide +kernel
  · decide +kernel

end OpenAirplay.Audio
