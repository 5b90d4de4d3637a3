import OpenAirplay.ControlReceiver
import OpenAirplay.StreamRates
import OpenAirplay.Timing

/-!
# Divisions by the sample rate and the packet length

Both numbers come from the ANNOUNCE, and nothing checks them there. What divides by them is
called by the session, when its playback thread is spawned, and by the thread itself, which
shares a clock with the timing and control tasks.
-/

namespace OpenAirplay

open Program Transitions

set_option autoImplicit false

/-! ## Each division checked -/

def divideNat (a b : Nat) : Except Fault Nat := if b = 0 then .error .divideByZero else .ok (a / b)

def divideFrames (frames rate : U32) : Except Fault Duration :=
  if rate = 0 then .error .divideByZero else .ok ((frames.toNat : ℚ) / rate.toNat)

namespace Checked

def prebufferPackets (config : AlacConfig) : Except Fault Nat := do
  let frames := max config.framesPerPacket.toNat 1
  let target ← divideNat config.sampleRate.toNat 5
  let packets ← divideNat target frames
  return max packets 1

def framesToDuration (frames rate : U32) : Except Fault Duration :=
  if rate = 0 then return 0 else divideFrames frames rate

def extent (track : Track) (ts rate : U32) : Except Fault (Option (Duration × Duration)) :=
  if rate = 0 then return none
  else if track.endTs - track.start < ts - track.start then return none
  else do
    let elapsed ← divideFrames (ts - track.start) rate
    let duration ← divideFrames (track.endTs - track.start) rate
    return some (elapsed, duration)

theorem prebufferPackets_eq (config : AlacConfig) :
    prebufferPackets config = .ok (Player.prebufferPackets config) := by
  have hframes : max config.framesPerPacket.toNat 1 ≠ 0 := by omega
  simp only [prebufferPackets, divideNat, if_neg hframes]
  rfl

theorem framesToDuration_eq (frames rate : U32) :
    framesToDuration frames rate = .ok (OpenAirplay.framesToDuration frames rate) := by
  unfold framesToDuration OpenAirplay.framesToDuration divideFrames
  split <;> rfl

theorem extent_eq (track : Track) (ts rate : U32) :
    extent track ts rate = .ok (Player.extent track ts rate) := by
  unfold extent Player.extent
  split
  · rfl
  · rename_i hrate
    simp only [divideFrames, if_neg hrate, framesToDuration_of_ne hrate]
    split <;> rfl

end Checked

/-- A call of one of the functions that divide. -/
inductive Division where
  | prebufferPackets (config : AlacConfig)
  | framesToDuration (frames rate : U32)
  | extent (track : Track) (ts rate : U32)
  | playTime (clock : ClockModel) (rtp : U32)

def Division.Faults : Division → Prop
  | .prebufferPackets config => Checked.prebufferPackets config = .error .divideByZero
  | .framesToDuration frames rate => Checked.framesToDuration frames rate = .error .divideByZero
  | .extent track ts rate => Checked.extent track ts rate = .error .divideByZero
  | .playTime clock rtp => clock.playTime rtp = .error .divideByZero

theorem playTime_faults_iff {clock : ClockModel} {rtp : U32} :
    (Division.playTime clock rtp).Faults ↔ clock.isReady = true ∧ clock.sampleRate = 0 := by
  obtain ⟨rate, samples, offset, anchor⟩ := clock
  unfold Division.Faults
  cases offset with
  | none => simp [ClockModel.playTime, ClockModel.isReady, pure, Except.pure]
  | some offset =>
    cases anchor with
    | none => simp [ClockModel.playTime, ClockModel.isReady, pure, Except.pure]
    | some anchor =>
      by_cases hrate : rate = 0
      · subst hrate
        simp [ClockModel.playTime, ClockModel.isReady, divide, bind, Except.bind]
      · have hne : rate.toNat ≠ 0 := toNat_ne_zero hrate
        simpa [ClockModel.playTime, ClockModel.isReady, divide, hne, bind, Except.bind, pure,
          Except.pure] using hrate

theorem Division.faults_iff {d : Division} :
    d.Faults ↔ ∃ clock rtp, d = .playTime clock rtp ∧ clock.isReady = true ∧
      clock.sampleRate = 0 := by
  cases d with
  | prebufferPackets config => simp [Faults, Checked.prebufferPackets_eq]
  | framesToDuration frames rate => simp [Faults, Checked.framesToDuration_eq]
  | extent track ts rate => simp [Faults, Checked.extent_eq]
  | playTime clock rtp => simp [playTime_faults_iff]

/-! ## A stream -/

/-- A session, its playback thread, and the timing task with the clock they share. -/
structure Stream where
  session : Session
  track : Option Track
  playback : Player.Playback Player.Command Player.Sample
  timing : TimingTask

inductive StreamLabel where
  | request (request : Request) (response : Response) (part : Trace)
  | thread (label : Player.Label Player.Command Player.Sample)
  | timing (input : TimingInput)
  | control (datagram : Bytes)

/-- The anchor after these operations. -/
def trackAfter (track : Option Track) (part : Trace) : Option Track :=
  part.foldl (fun track call =>
    match call.1 with
    | .act (.setTrack latest) => latest
    | _ => track) track

/-- What a datagram to one of the tasks does to the clock. -/
def TimingTask.feed (task : TimingTask) : StreamLabel → TimingTask
  | .timing input => (task.turn input).1
  | .control datagram => { task with clock := (Audio.controlTurn task.clock datagram).1 }
  | _ => task

inductive StreamStep (ctx : Context) (config : AlacConfig) (decoder : Player.Decoder) :
    Stream → StreamLabel → Stream → Prop where
  | request {x : Stream} {request : Request} {response : Response} {part : Trace}
    {session : Session} : Runs (ctx.dispatch x.session request) part (session, response) →
      StreamStep ctx config decoder x (.request request response part)
        { x with session := session, track := trackAfter x.track part }
  | thread {x : Stream} {label : Player.Label Player.Command Player.Sample}
    {playback : Player.Playback Player.Command Player.Sample} :
    Player.Step config decoder Player.plain x.playback label playback →
      StreamStep ctx config decoder x (.thread label) { x with playback := playback }
  | timing {x : Stream} {input : TimingInput} :
    StreamStep ctx config decoder x (.timing input)
      { x with timing := x.timing.feed (.timing input) }
  | control {x : Stream} {datagram : Bytes} :
    StreamStep ctx config decoder x (.control datagram)
      { x with timing := x.timing.feed (.control datagram) }

/-- The divisions a progress line leads to. -/
def ProgressLine.divisions (rate : U32) (line : ProgressLine) : List Division :=
  [.framesToDuration line.elapsed rate, .framesToDuration line.length rate]

/-- The divisions a step makes. -/
def StreamLabel.divisions (config : AlacConfig) (x : Stream) : StreamLabel → List Division
  | .request latest response part =>
    match x.session.params with
    | none => []
    | some params =>
      if x.session.streaming then
        (Step.positions ⟨latest, response, sentEvents part⟩).flatMap
          (ProgressLine.divisions params.alac.sampleRate)
      else []
  | .thread (.act (.awaitStart (some firstTs))) => [.playTime x.timing.clock firstTs]
  | .thread (.act (.played ts)) => x.track.toList.map fun track => .extent track ts config.sampleRate
  | _ => []

/-- An accepted ANNOUNCE, and the SETUP that spawns a playback thread for what it announced.
Other requests may come between the two. -/
structure Opening (ctx : Context) where
  before : Session
  announce : Request
  announced : Session
  accepted : before.handleAnnounce ctx.crates announce = (announced, .ok)
  session : Session
  kept : session.params = announced.params
  setup : Request
  trace : Trace
  opened : Session
  response : Response
  handled : Runs (session.handleSetup setup ctx.localIp) trace (opened, response)
  config : AlacConfig
  sink : Nat
  spawned : ∃ call ∈ trace, call.1 = .ask (.spawnPlayer config sink)

/-- Whatever a SETUP does, it spawns a player for the format announced last only. -/
theorem spawnsOnly_setup {s s' : Session} {params : Audio.StreamParams} {request : Request}
    {localIp : IpAddr} {trace : Trace} {response : Response} (hparams : s.params = some params)
    (h : Runs (s.handleSetup request localIp) trace (s', response)) :
    Every (Op.spawnsOnly params.alac) trace := by
  have hacquired := s.spawnsOnly_acquired params.alac
  rcases Session.setup_cases h with ⟨_, rfl, _⟩ | ⟨_, _, rfl, _⟩ | ⟨_, _, _, hwhy⟩ |
    ⟨params', ports, hparams', _, _, hst⟩
  · exact every_nil _
  · simp [asked, Op.spawnsOnly]
  · rcases hwhy with ⟨_, rfl⟩ | ⟨_, rfl⟩
    · exact hacquired
    · simp [hacquired, asked, Op.spawnsOnly]
  · obtain rfl := Option.some.inj (hparams.symm.trans hparams')
    exact hst.spawnsOnly

namespace Opening

variable {ctx : Context} (o : Opening ctx)

/-- The stream as it is opened, with a decoder for its format. -/
def stream (track : Option Track) : Stream :=
  ⟨o.opened, track, Player.spawn o.config true, .new o.config.sampleRate⟩

/-- The timing task after what these labels brought it. -/
def timingAfter (labels : List StreamLabel) : TimingTask :=
  labels.foldl TimingTask.feed (.new o.config.sampleRate)

/-- No division by zero when the thread is spawned nor in any step of a run. -/
def Faultless (decoder : Player.Decoder) (track : Option Track) (labels : List StreamLabel) :
    Prop :=
  ¬(Division.prebufferPackets o.config).Faults ∧
    ∀ pre label post x, labels = pre ++ label :: post →
      Run (StreamStep ctx o.config decoder) (o.stream track) pre x →
        ∀ d ∈ label.divisions o.config x, ¬d.Faults

/-- The thread is spawned for the announced rate. -/
theorem rate_announced : o.announce.rate? = some o.config.sampleRate := by
  obtain ⟨call, hcall, hspawn⟩ := o.spawned
  have hannounced := Session.handleAnnounce_cases ctx.crates o.before o.announce
  rw [o.accepted] at hannounced
  obtain ⟨-, params, hparams, hrate⟩ := hannounced.resolve_left fun h => h.1 rfl
  have hkept : o.session.params = some params := o.kept.trans (congrArg Session.params hparams)
  have honly := spawnsOnly_setup hkept o.handled call hcall
  rw [hspawn] at honly
  rw [of_decide_eq_true honly, hrate]

end Opening

/-! ## The clock -/

theorem ClockModel.addTiming_sampleRate (m : ClockModel) (t1 t2 t3 t4 : Nat) :
    (m.addTiming t1 t2 t3 t4).sampleRate = m.sampleRate := by
  unfold addTiming
  split <;> rfl

theorem TimingTask.feed_sampleRate (task : TimingTask) (label : StreamLabel) :
    (task.feed label).clock.sampleRate = task.clock.sampleRate := by
  cases label with
  | timing input =>
    cases input with
    | send now => rfl
    | receive now datagram =>
      simp only [feed, turn]
      split
      · exact ClockModel.addTiming_sampleRate _ _ _ _ _
      · rfl
  | control datagram =>
    simp only [feed, Audio.controlTurn]
    split
    · rfl
    · split <;> rfl
  | _ => rfl

theorem TimingTask.foldl_feed_sampleRate (task : TimingTask) (labels : List StreamLabel) :
    (labels.foldl feed task).clock.sampleRate = task.clock.sampleRate := by
  induction labels generalizing task with
  | nil => rfl
  | cons label labels ih => rw [List.foldl_cons, ih, feed_sampleRate]

/-- Nothing but the datagrams changes the clock. -/
theorem StreamStep.timing_eq {ctx : Context} {config : AlacConfig} {decoder : Player.Decoder}
    {x y : Stream} {label : StreamLabel} (h : StreamStep ctx config decoder x label y) :
    y.timing = x.timing.feed label := by
  cases h <;> rfl

theorem timing_of_run {ctx : Context} {config : AlacConfig} {decoder : Player.Decoder}
    {x y : Stream} {labels : List StreamLabel}
    (h : Run (StreamStep ctx config decoder) x labels y) :
    y.timing = labels.foldl TimingTask.feed x.timing := by
  induction h with
  | nil x => rfl
  | cons hstep _ ih => rw [ih, hstep.timing_eq, List.foldl_cons]

/-- Only the start of playback asks for an instant. -/
theorem playTime_mem_divisions {config : AlacConfig} {x : Stream} {label : StreamLabel}
    {clock : ClockModel} {rtp : U32} (h : .playTime clock rtp ∈ label.divisions config x) :
    label = .thread (.act (.awaitStart (some rtp))) ∧ clock = x.timing.clock := by
  unfold StreamLabel.divisions at h
  split at h
  · split at h
    · cases h
    · split at h
      · obtain ⟨line, _, hline⟩ := List.mem_flatMap.mp h
        simp [ProgressLine.divisions] at hline
      · cases h
  · rename_i firstTs
    obtain ⟨rfl, rfl⟩ := Division.playTime.inj (List.mem_singleton.mp h)
    exact ⟨rfl, rfl⟩
  · simp at h
  · cases h

/-- In a run of a stream nothing divides by zero exactly when no start of playback is awaited
while the clock is ready, if the announced rate is zero. -/
theorem faultless_iff (ctx : Context) (o : Opening ctx) (decoder : Player.Decoder)
    (track : Option Track) (labels : List StreamLabel) (last : Stream)
    (h : Run (StreamStep ctx o.config decoder) (o.stream track) labels last) :
    o.Faultless decoder track labels ↔
      ∀ pre firstTs post, labels = pre ++ .thread (.act (.awaitStart (some firstTs))) :: post →
        (o.timingAfter pre).clock.isReady = true → o.announce.rate? ≠ some 0 := by
  have hrate : ∀ pre, (o.timingAfter pre).clock.sampleRate = o.config.sampleRate :=
    fun pre => TimingTask.foldl_feed_sampleRate _ pre
  rw [o.rate_announced]
  constructor
  · intro hfaultless pre firstTs post hsplit hready hzero
    rw [hsplit] at h
    obtain ⟨x, hpre, -⟩ := h.split
    have htiming : x.timing = o.timingAfter pre := timing_of_run hpre
    refine hfaultless.2 pre _ post x hsplit hpre _ (List.mem_singleton_self _) ?_
    rw [playTime_faults_iff, htiming]
    exact ⟨hready, (hrate pre).trans (Option.some.inj hzero)⟩
  · intro hnever
    refine ⟨by simp [Division.faults_iff], ?_⟩
    intro pre label post x hsplit hpre d hd hfaults
    obtain ⟨clock, rtp, rfl, hready, hzero⟩ := Division.faults_iff.mp hfaults
    obtain ⟨rfl, rfl⟩ := playTime_mem_divisions hd
    have htiming : x.timing = o.timingAfter pre := timing_of_run hpre
    rw [htiming] at hready hzero
    exact hnever pre rtp post hsplit hready (congrArg some ((hrate pre).symm.trans hzero))

/-! ## A stream of rate zero -/

def announceZero : Request :=
  ⟨"ANNOUNCE", "rtsp://192.168.1.10/1", [], Text.utf8 "a=fmtp:96 352 0 16 40 10 14 2 255 0 0 0\n"⟩

def zeroConfig : AlacConfig := ⟨352, 16, 2, 0, #v[96, 352, 0, 16, 40, 10, 14, 2, 255, 0, 0, 0]⟩

theorem handleAnnounce_zero (s : Session) :
    s.handleAnnounce openContext.crates announceZero =
      ({ s with params := some (plainParams zeroConfig) }, .ok) :=
  @Session.handleAnnounce_plain _ _ "96 352 0 16 40 10 14 2 255 0 0 0" _ (by decide +kernel)
    (by decide +kernel) s

def zeroClient : Session := { client with params := some (plainParams zeroConfig) }

def zeroRate : Opening openContext where
  before := client
  announce := announceZero
  announced := zeroClient
  accepted := handleAnnounce_zero client
  session := zeroClient
  kept := rfl
  setup := setupRequest
  trace := ((zeroClient.handleSetup setupRequest openContext.localIp).execute obliging).1
  opened := ((zeroClient.handleSetup setupRequest openContext.localIp).execute obliging).2.1
  response := ((zeroClient.handleSetup setupRequest openContext.localIp).execute obliging).2.2
  handled := runs_execute obliging _
  config := zeroConfig
  sink := 0
  spawned := by decide +kernel

def stereoDecoder : Player.Decoder := ⟨2, fun _ => some [0, 0]⟩

/-- The frame 1000 is at the DAC at the client's sixth second. -/
def syncDatagram : Bytes :=
  [0x80, 0xd4, 0, 7] ++ u32ToBe 1000 ++ u32ToBe 6 ++ u32ToBe 0 ++ u32ToBe 1000

/-- The clock is ready, and the first packet fills the prebuffer. -/
def readyLabels : List StreamLabel :=
  [.timing (.send 0), .timing (.receive 310000000 quarterReply), .control syncDatagram,
    .thread (.send (.frame 1000 [0])), .thread .receive, .thread .check]

def startLabel : StreamLabel := .thread (.act (.awaitStart (some 1000)))

theorem ready_run : ∃ last, Run (StreamStep openContext zeroConfig stereoDecoder)
    (zeroRate.stream none) (readyLabels ++ [startLabel]) last :=
  ⟨_, .cons .timing <| .cons .timing <| .cons .control <| .cons (.thread (.send rfl)) <|
    .cons (.thread (.receive rfl rfl)) <| .cons (.thread (.handled rfl rfl rfl)) <|
      .single (.thread (.act rfl))⟩

theorem faultless_iff_zero :
    zeroRate.Faultless stereoDecoder none (readyLabels ++ [startLabel]) ↔
      ∀ pre firstTs post,
        readyLabels ++ [startLabel] = pre ++ .thread (.act (.awaitStart (some firstTs))) :: post →
          (zeroRate.timingAfter pre).clock.isReady = true → zeroRate.announce.rate? ≠ some 0 := by
  obtain ⟨last, h⟩ := ready_run
  exact faultless_iff openContext zeroRate stereoDecoder none (readyLabels ++ [startLabel]) last h

/-- `play_time` divides by the rate of zero once the clock is ready. -/
theorem zero_rate_faults :
    client.handleAnnounce openContext.crates announceZero = (zeroClient, .ok) ∧
      (∃ last, Run (StreamStep openContext zeroConfig stereoDecoder) (zeroRate.stream none)
        (readyLabels ++ [startLabel]) last) ∧
      (zeroRate.timingAfter readyLabels).clock.playTime 1000 = .error .divideByZero ∧
      ¬zeroRate.Faultless stereoDecoder none (readyLabels ++ [startLabel]) := by
  have hready : (zeroRate.timingAfter readyLabels).clock.isReady = true := by decide +kernel
  have hzero : (zeroRate.timingAfter readyLabels).clock.sampleRate = 0 :=
    TimingTask.foldl_feed_sampleRate _ readyLabels
  have hfault : (Division.playTime (zeroRate.timingAfter readyLabels).clock 1000).Faults :=
    playTime_faults_iff.mpr ⟨hready, hzero⟩
  refine ⟨handleAnnounce_zero client, ready_run, hfault, ?_⟩
  intro hfaultless
  obtain ⟨last, h⟩ := ready_run
  obtain ⟨x, hpre, -⟩ := h.split
  have htiming : x.timing = zeroRate.timingAfter readyLabels := timing_of_run hpre
  refine hfaultless.2 readyLabels startLabel [] x rfl hpre _ (List.mem_singleton_self _) ?_
  rw [htiming]
  exact hfault

end OpenAirplay
