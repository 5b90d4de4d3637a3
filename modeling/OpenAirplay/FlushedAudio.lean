import OpenAirplay.Marking

/-!
# Audio queued before a flush

A flush is queued behind the audio it is meant to discard. What of that audio still reaches
the sink is what the thread had already let out of its prebuffer, or lets out on its way.
-/

namespace OpenAirplay.Player

open Transitions

set_option autoImplicit false

section Backlog

variable (config : AlacConfig) (decoder : Decoder)

/-- The commands the thread takes before it stops, between flushes. -/
def batches (backlog : List Command) : List (List Command) :=
  (backlog.takeWhile (· != .stop)).splitOn .flush

def packets (batch : List Command) : List (List Sample) :=
  batch.filterMap fun command => (pcm config decoder command).map Prod.snd

/-- No batch gets past the prebuffer, the first one on top of what is in there already. -/
def HeldBack (pb : Prebuffer Sample) : List (List Command) → Prop
  | [] => True
  | first :: rest =>
    pb.Keeps (packets config decoder first) ∧
      ∀ batch ∈ rest, (Prebuffer.new pb.thresholdPackets).Keeps (packets config decoder batch)

/-- No chunk is on its way to the sink, and none will be for the commands that are queued,
unless the thread is told to stop before it takes the next one. -/
def Quiet (s : Playback Command Sample) : Prop :=
  match s.phase with
  | .working actions =>
    written actions = [] ∧
      (s.stop = false → HeldBack config decoder s.playout.prebuffer (batches s.queue))
  | .received command =>
    s.stop = false → HeldBack config decoder s.playout.prebuffer (batches (command :: s.queue))
  | .draining | .stopped => True

end Backlog

section Batches

variable {config : AlacConfig} {decoder : Decoder}

theorem batches_nil : batches [] = [[]] := rfl

theorem batches_stop (rest : List Command) : batches (.stop :: rest) = [[]] := rfl

theorem batches_flush (rest : List Command) : batches (.flush :: rest) = [] :: batches rest := by
  simp [batches, List.splitOn_cons_eq_if_modifyHead]

theorem batches_cons {command : Command} (hstop : command ≠ .stop) (hflush : command ≠ .flush)
    (rest : List Command) :
    batches (command :: rest) = (batches rest).modifyHead (command :: ·) := by
  simp [batches, List.splitOn_cons_eq_if_modifyHead, hstop, hflush]

theorem batches_ne_nil (backlog : List Command) : batches backlog ≠ [] := List.splitOn_ne_nil _ _

theorem packets_cons_none {command : Command} (h : pcm config decoder command = none)
    (batch : List Command) :
    packets config decoder (command :: batch) = packets config decoder batch := by
  simp [packets, h]

theorem packets_cons_some {command : Command} {ts : U32} {samples : List Sample}
    (h : pcm config decoder command = some (ts, samples)) (batch : List Command) :
    packets config decoder (command :: batch) = samples :: packets config decoder batch := by
  simp [packets, h]

/-- Replaying a backlog writes nothing exactly when its batches are held back. -/
theorem written_replay_iff {p : Playout Sample} (hp : p.prebuffer.Sound) (backlog : List Command) :
    written (replay config decoder plain p backlog).1 = [] ↔
      HeldBack config decoder p.prebuffer (batches backlog) := by
  induction backlog generalizing p with
  | nil =>
    rw [batches_nil]
    exact ⟨fun _ => ⟨hp.keeps_nil, by simp⟩, fun _ => rfl⟩
  | cons command rest ih =>
    obtain ⟨first, others, hbatches⟩ := List.exists_cons_of_ne_nil (batches_ne_nil rest)
    rcases handle_cases config decoder plain p command with
      ⟨ts, samples, hpcm⟩ | ⟨hnone, ⟨hstop, heq⟩ | ⟨hflush, heq⟩ | ⟨hstop, hflush, heq⟩⟩
    · have hstop : command ≠ .stop := by
        rintro rfl
        cases hpcm
      have hflush : command ≠ .flush := by
        rintro rfl
        cases hpcm
      have hsamples : samples.map (plain.sample command) = samples := List.map_id' samples
      obtain ⟨hwritten, hkept⟩ := written_feed p ts samples
      have hrest := ih (p := (p.feed ts samples).2) (by rw [hkept]; exact hp.push samples)
      rw [replay_cons_some (handle_pcm hpcm), hsamples, batches_cons hstop hflush, hbatches]
      rw [hkept, hbatches] at hrest
      have hfirst : packets config decoder (command :: first) =
          samples :: packets config decoder first := packets_cons_some hpcm first
      simp only [written_append, written_played, List.append_nil, List.append_eq_nil_iff, hwritten,
        hrest, List.modifyHead_cons, HeldBack, hfirst, hp.keeps_cons,
        Prebuffer.push_thresholdPackets, and_assoc]
    · obtain rfl : command = .stop := hstop
      rw [replay_cons_none heq, batches_stop]
      exact ⟨fun _ => ⟨hp.keeps_nil, by simp⟩, fun _ => rfl⟩
    · obtain rfl : command = .flush := hflush
      have hrest := ih (p := p.reset) hp.reset
      rw [hbatches] at hrest
      rw [replay_cons_some heq, batches_flush, written_append, written_flush, List.nil_append, hrest,
        hbatches]
      simp only [HeldBack, List.forall_mem_cons, packets, List.filterMap_nil, hp.keeps_nil,
        true_and]
      exact Iff.rfl
    · have hstop' : command ≠ .stop := hstop
      have hflush' : command ≠ .flush := hflush
      have hrest := ih hp
      rw [hbatches] at hrest
      have hfirst : packets config decoder (command :: first) = packets config decoder first :=
        packets_cons_none hnone first
      rw [replay_cons_some heq, batches_cons hstop' hflush', List.nil_append, hrest, hbatches]
      simp only [List.modifyHead_cons, HeldBack, hfirst]

end Batches

/-! ## Marked audio -/

/-- None of these samples was in the player at the flush. -/
def NoOld (samples : List (Age × Sample)) : Prop := ∀ x ∈ samples, x.1 = .fresh

section Clear

variable (config : AlacConfig) (decoder : Decoder)

/-- The thread writes no old sample for this backlog and keeps none. -/
def ClearAhead (p : Playout (Age × Sample)) (backlog : List (Age × Command)) : Prop :=
  NoOld (written (replay config decoder aged p backlog).1) ∧
    ∀ q ∈ (replay config decoder aged p backlog).2, NoOld q.prebuffer.buffer

/-- The thread will never write an old sample again. -/
def Clear (s : Playback (Age × Command) (Age × Sample)) : Prop :=
  match s.phase with
  | .working actions =>
    NoOld (written actions) ∧ (s.stop = false → ClearAhead config decoder s.playout s.queue)
  | .received command =>
    s.stop = false → ClearAhead config decoder s.playout (command :: s.queue)
  | .draining | .stopped => True

end Clear

section Flush

variable {config : AlacConfig} {decoder : Decoder}

theorem clearAhead_append {p : Playout (Age × Sample)} {backlog : List (Age × Command)}
    (h : ClearAhead config decoder p backlog) {command : Age × Command}
    (hfresh : command.1 = .fresh) :
    ClearAhead config decoder p (backlog ++ [command]) := by
  obtain ⟨hwritten, hkept⟩ := h
  -- all that is written or kept past the backlog comes from the prebuffer or the new command
  have hnew : ∀ q ∈ (replay config decoder aged p backlog).2,
      NoOld (written (replay config decoder aged q [command]).1) ∧
        ∀ r ∈ (replay config decoder aged q [command]).2, NoOld r.prebuffer.buffer := by
    intro q hq
    cases hhandle : handle config decoder aged q command with
    | none =>
      rw [replay_cons_none hhandle]
      exact ⟨by simp [NoOld], by simp⟩
    | some result =>
      obtain ⟨actions, q'⟩ := result
      have hmem : ∀ x, x ∈ written actions ∨ x ∈ q'.prebuffer.buffer → x.1 = .fresh := by
        intro x hx
        rcases handle_mem hhandle hx with hx | ⟨y, rfl⟩
        · exact hkept q hq x hx
        · exact hfresh
      rw [replay_cons_some hhandle, replay, List.append_nil]
      refine ⟨fun x hx => hmem x (.inl hx), ?_⟩
      intro r hr
      cases hr
      exact fun x hx => hmem x (.inr hx)
  unfold ClearAhead
  rw [replay_append]
  cases hlast : (replay config decoder aged p backlog).2 with
  | none => exact ⟨by simpa using hwritten, by simp⟩
  | some q =>
    obtain ⟨hactions, hbuffer⟩ := hnew q hlast
    refine ⟨?_, hbuffer⟩
    intro x hx
    rw [written_append] at hx
    rcases List.mem_append.mp hx with hx | hx
    · exact hwritten x hx
    · exact hactions x hx

theorem clearAhead_cons {p q : Playout (Age × Sample)} {command : Age × Command}
    {rest : List (Age × Command)} {actions : List (Action (Age × Sample))}
    (h : ClearAhead config decoder p (command :: rest))
    (hhandle : handle config decoder aged p command = some (actions, q)) :
    NoOld (written actions) ∧ ClearAhead config decoder q rest := by
  obtain ⟨hwritten, hkept⟩ := h
  rw [replay_cons_some hhandle] at hwritten hkept
  rw [written_append] at hwritten
  exact ⟨fun x hx => hwritten x (List.mem_append_left _ hx),
    fun x hx => hwritten x (List.mem_append_right _ hx), hkept⟩

/-- No step with fresh commands lets an old sample through. -/
theorem clear_step {s t : Playback (Age × Command) (Age × Sample)}
    {l : Label (Age × Command) (Age × Sample)} (h : Clear config decoder s) (hl : l.SendsFresh)
    (hstep : Step config decoder aged s l t) :
    Clear config decoder t ∧ ∀ chunk, l = .act (.write chunk) → NoOld chunk := by
  unfold Clear at h
  cases hstep with
  | @send command hconnected =>
    have hfresh := hl command rfl
    refine ⟨?_, by simp⟩
    unfold Clear
    rw [Playback.send]
    cases hphase : s.phase with
    | working actions =>
      rw [hphase] at h
      exact ⟨h.1, fun hstop => clearAhead_append (h.2 hstop) hfresh⟩
    | received c =>
      rw [hphase] at h
      intro hstop
      exact clearAhead_append (h hstop) hfresh
    | draining => trivial
    | stopped => trivial
  | setStop =>
    refine ⟨?_, by simp⟩
    unfold Clear
    cases hphase : s.phase with
    | working actions =>
      rw [hphase] at h
      exact ⟨h.1, by simp⟩
    | received c => simp
    | draining => trivial
    | stopped => trivial
  | disconnect => exact ⟨h, by simp⟩
  | receive hphase hqueue =>
    rw [hphase, hqueue] at h
    exact ⟨h.2, by simp⟩
  | hungUp _ _ _ => exact ⟨trivial, by simp⟩
  | preempted _ _ => exact ⟨trivial, by simp⟩
  | handled hphase hstop hhandle =>
    rw [hphase] at h
    obtain ⟨hactions, hrest⟩ := clearAhead_cons (h hstop) hhandle
    exact ⟨⟨hactions, fun _ => hrest⟩, by simp⟩
  | stopped _ _ _ => exact ⟨trivial, by simp⟩
  | @act action actions hphase =>
    rw [hphase] at h
    obtain ⟨hactions, hahead⟩ := h
    have hsplit : written (action :: actions) = written [action] ++ written actions :=
      written_append [action] actions
    rw [hsplit] at hactions
    refine ⟨⟨fun x hx => hactions x (List.mem_append_right _ hx), hahead⟩, ?_⟩
    intro chunk hchunk
    cases hchunk
    exact fun x hx => hactions x (List.mem_append_left _ (by simpa [written] using hx))
  | drain hphase _ =>
    refine ⟨?_, by simp⟩
    unfold Clear
    rw [hphase]
    trivial

theorem clearAhead_flush {p : Playout Sample} {backlog : List Command}
    (h : written (replay config decoder plain p backlog).1 = []) :
    ClearAhead config decoder (p.map (Prod.mk .old))
      (backlog.map (Prod.mk .old) ++ [(.fresh, .flush)]) := by
  have hflush : ∀ q : Playout (Age × Sample),
      replay config decoder aged q [(.fresh, .flush)] = ([.flush], some q.reset) := fun q => rfl
  unfold ClearAhead
  rw [replay_append, replay_map config decoder agree_old]
  cases (replay config decoder plain p backlog).2 with
  | none => simp [written_map, h, NoOld]
  | some q => simp [written_map, h, hflush, NoOld, Playout.reset, Prebuffer.reset]

theorem clear_of_quiet {s : Playback Command Sample} (hs : s.playout.prebuffer.Sound)
    (h : Quiet config decoder s) : Clear config decoder (s.old.send (.fresh, .flush)) := by
  unfold Quiet at h
  unfold Clear
  rw [Playback.send, Playback.old, Playback.map]
  cases hphase : s.phase with
  | working actions =>
    rw [hphase] at h
    obtain ⟨hactions, hahead⟩ := h
    refine ⟨by simp [written_map, hactions, NoOld], fun hstop => ?_⟩
    exact clearAhead_flush ((written_replay_iff hs s.queue).mpr (hahead hstop))
  | received command =>
    rw [hphase] at h
    intro hstop
    exact clearAhead_flush ((written_replay_iff hs (command :: s.queue)).mpr (h hstop))
  | draining => trivial
  | stopped => trivial

theorem exists_old {actions : List (Action Sample)} (h : written actions ≠ []) :
    ∃ chunk, .write chunk ∈ actions.map (Action.map (Prod.mk Age.old)) ∧ ¬NoOld chunk := by
  obtain ⟨x, hx⟩ := List.exists_mem_of_ne_nil _ h
  obtain ⟨chunk, hchunk, hmem⟩ := mem_written.mp hx
  refine ⟨chunk.map (Prod.mk Age.old), List.mem_map.mpr ⟨_, hchunk, rfl⟩, ?_⟩
  intro hno
  cases hno (.old, x) (List.mem_map.mpr ⟨x, hmem, rfl⟩)

theorem replay_old_of_written {p : Playout Sample} {backlog : List Command}
    (h : written (replay config decoder plain p backlog).1 ≠ []) :
    ∃ chunk, .write chunk ∈ (replay config decoder aged (p.map (Prod.mk .old))
      (backlog.map (Prod.mk .old))).1 ∧ ¬NoOld chunk := by
  rw [replay_map config decoder agree_old]
  exact exists_old h

theorem old_written_of_not_quiet {s : Playback Command Sample} (hs : s.playout.prebuffer.Sound)
    (h : ¬Quiet config decoder s) :
    ∃ labels t, Run (Step config decoder aged) (s.old.send (.fresh, .flush)) labels t ∧
      (∀ l ∈ labels, l.SendsFresh) ∧ ∃ chunk, .act (.write chunk) ∈ labels ∧ ¬NoOld chunk := by
  have hfresh : ∀ labels : List (Label (Age × Command) (Age × Sample)),
      (∀ l ∈ labels, ∀ c, l ≠ .send c) → ∀ l ∈ labels, l.SendsFresh := by
    intro labels hno l hl c hc
    exact absurd hc (hno l hl c)
  unfold Quiet at h
  cases hphase : s.phase with
  | working actions =>
    rw [hphase] at h
    have hworking : (s.old.send (.fresh, .flush)).phase =
        .working (actions.map (Action.map (Prod.mk .old))) := by
      simp [Playback.send, Playback.old, Playback.map, hphase, Phase.map]
    have hpending := run_actions config decoder aged hworking
    by_cases hactions : written actions = []
    · simp only [hactions, true_and, Classical.not_imp, ← written_replay_iff hs] at h
      obtain ⟨hstop, hne⟩ := h
      cases hqueue : s.queue with
      | nil =>
        rw [hqueue] at hne
        exact absurd rfl hne
      | cons command rest =>
        rw [hqueue] at hne
        obtain ⟨chunk, hchunk, hold⟩ := replay_old_of_written hne
        have hfront : (s.old.send (.fresh, .flush)).queue =
            (.old, command) :: (rest.map (Prod.mk .old) ++ [(.fresh, .flush)]) := by
          simp [Playback.send, Playback.old, Playback.map, hqueue]
        obtain ⟨labels, t, hrun, hno, hacts⟩ := run_replay config decoder aged
          { s.old.send (.fresh, .flush) with
            queue := rest.map (Prod.mk .old) ++ [(.fresh, .flush)]
            phase := .received (.old, command) }
          (.old, command) (rest.map (Prod.mk .old)) [(.fresh, .flush)] rfl rfl hstop
        refine ⟨_, t, hpending.append (.cons (.receive rfl hfront) hrun), hfresh _ ?_, chunk, ?_, hold⟩
        · intro l hl c
          simp only [List.mem_append, List.mem_map, List.mem_cons] at hl
          rcases hl with ⟨action, _, rfl⟩ | rfl | hl
          · simp
          · simp
          · exact hno l hl c
        · simp [hacts _ hchunk]
    · obtain ⟨chunk, hchunk, hold⟩ := exists_old hactions
      refine ⟨_, _, hpending, hfresh _ (by simp), chunk, ?_, hold⟩
      exact List.mem_map.mpr ⟨_, hchunk, rfl⟩
  | received command =>
    rw [hphase] at h
    simp only [Classical.not_imp, ← written_replay_iff hs] at h
    obtain ⟨hstop, hne⟩ := h
    obtain ⟨chunk, hchunk, hold⟩ := replay_old_of_written hne
    obtain ⟨labels, t, hrun, hno, hacts⟩ := run_replay config decoder aged
      (s.old.send (.fresh, .flush)) (.old, command) (s.queue.map (Prod.mk .old)) [(.fresh, .flush)]
      (phase_map_of_received hphase) rfl hstop
    exact ⟨labels, t, hrun, hfresh labels hno, chunk, hacts _ hchunk, hold⟩
  | draining => simp [hphase] at h
  | stopped => simp [hphase] at h

/-- From any moment of any run, a flush keeps all audio queued before it from the sink, however
the thread and the tasks go on, exactly when the player is quiet at that moment. -/
theorem flush_silences_iff (config : AlacConfig) (decoder : Decoder) (built : Bool)
    (labels : List (Label Command Sample)) (s : Playback Command Sample)
    (h : Run (Step config decoder plain) (spawn config built) labels s) :
    (∀ later t, Run (Step config decoder aged) (s.old.send (.fresh, .flush)) later t →
        (∀ l ∈ later, l.SendsFresh) → ∀ chunk, .act (.write chunk) ∈ later → NoOld chunk) ↔
      Quiet config decoder s := by
  have hsound := run_sound h
  constructor
  · intro hsilent
    by_contra hloud
    obtain ⟨later, t, hrun, hfresh, chunk, hchunk, hold⟩ := old_written_of_not_quiet hsound hloud
    exact hold (hsilent later t hrun hfresh chunk hchunk)
  · intro hquiet later t hrun hfresh chunk hchunk
    have hstep : ∀ (s : Playback (Age × Command) (Age × Sample)) l t, Clear config decoder s →
        l.SendsFresh → Step config decoder aged s l t →
          Clear config decoder t ∧ ∀ chunk, l = .act (.write chunk) → NoOld chunk :=
      fun _ _ _ => clear_step
    obtain ⟨_, hshown⟩ := hrun.invariant hstep (clear_of_quiet hsound hquiet) hfresh
    exact hshown _ hchunk chunk rfl

end Flush

/-- 200 ms packets, so that the prebuffer releases the first one. -/
def longPackets : AlacConfig :=
  ⟨8820, 16, 2, 44100, #v[96, 8820, 0, 16, 40, 10, 14, 2, 255, 0, 0, 44100]⟩

/-- An uncompressed stereo packet of one sample. -/
def shortPacket : Bytes := [0x20, 0x00, 0x12, 0x00, 0x00, 0x00, 0x02, 0x00, 0x0e, 0x00, 0x0f, 0xc0]

def shortDecoder : Decoder where
  channels := 2
  decode packet := if packet = shortPacket then some [7, 7] else none

/-- 100 ms packets, which the prebuffer releases from the second on. -/
def mediumPackets : AlacConfig :=
  ⟨4410, 16, 2, 44100, #v[96, 4410, 0, 16, 40, 10, 14, 2, 255, 0, 0, 44100]⟩

/-- A packet is in the prebuffer, and the next one is queued behind an earlier flush: each of the
two is dropped before there is enough. -/
theorem flush_silences_backlog :
    ∃ s, Run (Step mediumPackets shortDecoder plain) (spawn mediumPackets true)
        [.send (.frame 0 shortPacket), .send .flush, .send (.frame 4410 shortPacket), .receive,
          .check] s ∧
      s.queue = [.flush, .frame 4410 shortPacket] ∧ s.playout.prebuffer.buffer = [7, 7] ∧
        ∀ later t, Run (Step mediumPackets shortDecoder aged) (s.old.send (.fresh, .flush)) later t →
          (∀ l ∈ later, l.SendsFresh) → ∀ chunk, .act (.write chunk) ∈ later → NoOld chunk := by
  obtain ⟨s, hrun, hphase, hqueue, hplayout⟩ :
      ∃ s, Run (Step mediumPackets shortDecoder plain) (spawn mediumPackets true)
          [.send (.frame 0 shortPacket), .send .flush, .send (.frame 4410 shortPacket), .receive,
            .check] s ∧ s.phase = .working [.played 0] ∧ s.queue = [.flush, .frame 4410 shortPacket] ∧
        s.playout = ⟨⟨2, 1, [7, 7], false⟩, false, some 0⟩ :=
    ⟨_, .cons (.send rfl) <| .cons (.send rfl) <| .cons (.send rfl) <| .cons (.receive rfl rfl) <|
      .single (.handled rfl rfl rfl), rfl, rfl, rfl⟩
  refine ⟨s, hrun, hqueue, by rw [hplayout], ?_⟩
  apply (flush_silences_iff mediumPackets shortDecoder true _ s hrun).mpr
  have hheld : written (replay mediumPackets shortDecoder plain s.playout s.queue).1 = [] ↔
      HeldBack mediumPackets shortDecoder s.playout.prebuffer (batches s.queue) :=
    written_replay_iff (run_sound hrun) s.queue
  rw [Quiet, hphase]
  refine ⟨rfl, fun _ => hheld.mp ?_⟩
  rw [hplayout, hqueue]
  rfl

/-- Two packets are queued and the first is being written when the flush comes: then the second
is written as well. -/
theorem backlog_outlives_flush :
    ∃ s, Run (Step longPackets shortDecoder plain) (spawn longPackets true)
        [.send (.frame 0 shortPacket), .send (.frame 8820 shortPacket), .receive, .check,
          .act (.awaitStart (some 0)), .act (.write [7, 7])] s ∧
      ∃ later t, Run (Step longPackets shortDecoder aged) (s.old.send (.fresh, .flush)) later t ∧
        (∀ l ∈ later, l.SendsFresh) ∧ .act (.write [(.old, 7), (.old, 7)]) ∈ later := by
  refine ⟨_, .cons (.send rfl) (.cons (.send rfl) (.cons (.receive rfl rfl)
    (.cons (.handled rfl rfl rfl) (.cons (.act rfl) (.cons (.act rfl) (.nil _)))))), ?_⟩
  refine ⟨_, _, .cons (.act rfl) (.cons (.receive rfl rfl) (.cons (.handled rfl rfl rfl)
    (.cons (.act rfl) (.nil _)))), ?_, ?_⟩
  · simp [Label.SendsFresh]
  · exact List.mem_cons_of_mem _ (List.mem_cons_of_mem _ (List.mem_cons_of_mem _ List.mem_cons_self))

end OpenAirplay.Player
