import OpenAirplay.Passages
import OpenAirplay.Segments

/-!
# From the sender to the sink

The playback thread does for its commands what a replay of them does, whenever they are
queued and however far it has got. So what a sender streams is what the sink hears.
-/

namespace OpenAirplay.Player

open Transitions

set_option autoImplicit false

section Labels

variable {κ σ : Type}

def sends (labels : List (Label κ σ)) : List κ :=
  labels.filterMap fun
    | .send command => some command
    | _ => none

def acts (labels : List (Label κ σ)) : List (Action σ) :=
  labels.filterMap fun
    | .act action => some action
    | _ => none

theorem sends_snoc (labels : List (Label κ σ)) (l : Label κ σ) :
    sends (labels ++ [l]) = sends labels ++ sends [l] := List.filterMap_append

theorem acts_snoc (labels : List (Label κ σ)) (l : Label κ σ) :
    acts (labels ++ [l]) = acts labels ++ acts [l] := List.filterMap_append

end Labels

section Replay

variable {κ σ : Type} (config : AlacConfig) (decoder : Decoder) (reading : Reading κ σ)

/-- What the thread has yet to do, and the playout it will end with. -/
def Playback.ahead (s : Playback κ σ) : List (Action σ) × Option (Playout σ) :=
  match s.phase with
  | .working actions =>
    (actions ++ (replay config decoder reading s.playout s.queue).1,
      (replay config decoder reading s.playout s.queue).2)
  | .received command => replay config decoder reading s.playout (command :: s.queue)
  | .draining | .stopped => ([], none)

/-- The thread is on its way through its commands, or has stopped somewhere among them. -/
inductive Replays (p : Playout σ) (labels : List (Label κ σ)) (s : Playback κ σ) : Prop where
  | going :
    s.phase ≠ .draining → s.phase ≠ .stopped →
      replay config decoder reading p (sends labels) =
        (acts labels ++ (s.ahead config decoder reading).1, (s.ahead config decoder reading).2) →
      Replays p labels s
  | stopped :
    s.phase = .stopped → acts labels <+: (replay config decoder reading p (sends labels)).1 →
      Replays p labels s

variable {config decoder reading}

theorem ahead_working {s : Playback κ σ} {actions : List (Action σ)}
    (h : s.phase = .working actions) : s.ahead config decoder reading =
      (actions ++ (replay config decoder reading s.playout s.queue).1,
        (replay config decoder reading s.playout s.queue).2) := by
  rw [Playback.ahead, h]

theorem ahead_received {s : Playback κ σ} {command : κ} (h : s.phase = .received command) :
    s.ahead config decoder reading =
      replay config decoder reading s.playout (command :: s.queue) := by
  rw [Playback.ahead, h]

theorem ahead_send (s : Playback κ σ) (command : κ) (hdraining : s.phase ≠ .draining)
    (hstopped : s.phase ≠ .stopped) :
    (s.send command).ahead config decoder reading =
      ((s.ahead config decoder reading).1 ++ ((s.ahead config decoder reading).2.map fun q =>
          (replay config decoder reading q [command]).1).getD [],
        (s.ahead config decoder reading).2.bind fun q =>
          (replay config decoder reading q [command]).2) := by
  cases hphase : s.phase with
  | working actions =>
    have hsame : (s.send command).phase = .working actions := hphase
    rw [ahead_working hphase, ahead_working hsame]
    change (actions ++ (replay config decoder reading s.playout (s.queue ++ [command])).1,
      (replay config decoder reading s.playout (s.queue ++ [command])).2) = _
    rw [replay_append, List.append_assoc]
  | received first =>
    have hsame : (s.send command).phase = .received first := hphase
    rw [ahead_received hphase, ahead_received hsame]
    exact replay_append s.playout (first :: s.queue) [command]
  | draining => exact absurd hphase hdraining
  | stopped => exact absurd hphase hstopped

theorem prefix_replay (p : Playout σ) {commands more : List κ} (h : commands <+: more) :
    (replay config decoder reading p commands).1 <+: (replay config decoder reading p more).1 := by
  obtain ⟨rest, rfl⟩ := h
  rw [replay_append]
  exact List.prefix_append _ _

theorem Replays.prefix_acts {p : Playout σ} {labels : List (Label κ σ)} {s : Playback κ σ}
    (h : Replays config decoder reading p labels s) :
    acts labels <+: (replay config decoder reading p (sends labels)).1 := by
  cases h with
  | going _ _ hreplay =>
    rw [hreplay]
    exact List.prefix_append _ _
  | stopped _ hprefix => exact hprefix

theorem Replays.step {p : Playout σ} {labels : List (Label κ σ)} {s t : Playback κ σ}
    {l : Label κ σ} (h : Replays config decoder reading p labels s)
    (hstep : Step config decoder reading s l t) :
    Replays config decoder reading p (labels ++ [l]) t := by
  have hacts := h.prefix_acts
  -- a label that is no action and no command leaves the thread where it is or stops it
  have hsilent : sends [l] = [] → acts [l] = [] →
      t.ahead config decoder reading = s.ahead config decoder reading →
      (t.phase = .draining ↔ s.phase = .draining) → (t.phase = .stopped ↔ s.phase = .stopped) →
      Replays config decoder reading p (labels ++ [l]) t := by
    intro hsends hnone hahead hdraining hstopped
    cases h with
    | going hd hs hreplay =>
      refine .going (mt hdraining.mp hd) (mt hstopped.mp hs) ?_
      rw [sends_snoc, acts_snoc, hsends, hnone, List.append_nil, List.append_nil, hahead, hreplay]
    | stopped hs hprefix =>
      refine .stopped (hstopped.mpr hs) ?_
      rwa [sends_snoc, acts_snoc, hsends, hnone, List.append_nil, List.append_nil]
  have hends : sends [l] = [] → acts [l] = [] → t.phase = .stopped →
      Replays config decoder reading p (labels ++ [l]) t := by
    intro hsends hnone hstopped
    refine .stopped hstopped ?_
    rwa [sends_snoc, acts_snoc, hsends, hnone, List.append_nil, List.append_nil]
  cases hstep with
  | @send command hconnected =>
    cases h with
    | going hd hs hreplay =>
      refine .going hd hs ?_
      have hsends : sends [(.send command : Label κ σ)] = [command] := rfl
      have hnone : acts [(.send command : Label κ σ)] = [] := rfl
      rw [sends_snoc, acts_snoc, hsends, hnone, List.append_nil, replay_append, hreplay,
        ahead_send s command hd hs, List.append_assoc]
    | stopped hs hprefix =>
      refine .stopped hs ?_
      rw [sends_snoc, acts_snoc]
      exact (List.append_nil (acts labels)).symm ▸
        hprefix.trans (prefix_replay p (List.prefix_append _ _))
  | setStop => exact hsilent rfl rfl rfl Iff.rfl Iff.rfl
  | disconnect => exact hsilent rfl rfl rfl Iff.rfl Iff.rfl
  | @receive command rest hphase hqueue =>
    refine hsilent rfl rfl ?_ (by simp [hphase]) (by simp [hphase])
    rw [ahead_working hphase, hqueue]
    rfl
  | hungUp hphase hqueue hgone => exact hends rfl rfl rfl
  | preempted hphase hstop => exact hends rfl rfl rfl
  | @handled command actions q hphase hstop hhandle =>
    refine hsilent rfl rfl ?_ (by simp [hphase]) (by simp [hphase])
    rw [ahead_received hphase, replay_cons_some hhandle]
    rfl
  | stopped hphase hstop hhandle => exact hends rfl rfl rfl
  | @act action actions hphase =>
    cases h with
    | going hd hs hreplay =>
      refine .going (by simp) (by simp) ?_
      have hsends : sends [(.act action : Label κ σ)] = [] := rfl
      have hone : acts [(.act action : Label κ σ)] = [action] := rfl
      rw [ahead_working hphase] at hreplay
      rw [sends_snoc, acts_snoc, hsends, hone, List.append_nil, hreplay]
      simp [Playback.ahead]
    | stopped hs hprefix =>
      rw [hphase] at hs
      cases hs
  | drain hphase hqueue =>
    cases h with
    | going hd hs hreplay => exact absurd hphase hd
    | stopped hs hprefix =>
      rw [hphase] at hs
      cases hs

theorem Replays.run {p : Playout σ} {before labels : List (Label κ σ)} {s t : Playback κ σ}
    (h : Replays config decoder reading p before s)
    (hrun : Run (Step config decoder reading) s labels t) :
    Replays config decoder reading p (before ++ labels) t := by
  induction hrun generalizing before with
  | nil _ => rwa [List.append_nil]
  | cons hfirst _ ih =>
    rw [List.append_cons]
    exact ih (h.step hfirst)

theorem run_replays {s : Playback κ σ} {labels : List (Label κ σ)}
    (hrun : Run (Step config decoder reading) (spawn config true) labels s) :
    Replays config decoder reading (.new (prebufferPackets config)) labels s := by
  have hstart : Replays config decoder reading (.new (prebufferPackets config))
      ([] : List (Label κ σ)) (spawn config true) := .going (by simp [spawn]) (by simp [spawn]) rfl
  exact hstart.run hrun

/-- An idle thread has done it all. -/
theorem Replays.acts_eq {p : Playout σ} {labels : List (Label κ σ)} {s : Playback κ σ}
    (h : Replays config decoder reading p labels s) (hidle : s.phase = .working [])
    (hqueue : s.queue = []) :
    acts labels = (replay config decoder reading p (sends labels)).1 := by
  cases h with
  | going _ _ hreplay =>
    rw [hreplay, ahead_working hidle, hqueue]
    exact (List.append_nil _).symm
  | stopped hs _ =>
    rw [hidle] at hs
    cases hs

end Replay

end OpenAirplay.Player

namespace OpenAirplay.Audio

open Jitter Player Rtp SerialNumber Transitions

set_option autoImplicit false

/-- The audio of a passage, packet by packet; one that cannot be decoded has none. -/
def Passage.audio (cfg : Config) (decoder : Decoder) (p : Passage) :
    List (U32 × List Player.Sample) :=
  (List.range p.count).filterMap fun i => (decoder.decode (p.frames i)).map fun samples =>
    (stampAt p.firstSeq p.firstTs cfg.params.alac.framesPerPacket i, samples)

namespace Passage

theorem sounding_commands (cfg : Config) (decoder : Decoder) (p : Passage) :
    sounding cfg.params.alac decoder plain (p.commands cfg) = p.audio cfg decoder := by
  rw [sounding, commands, List.filterMap_map, audio]
  apply List.filterMap_congr
  intro i _
  simp [plain, pcm]

theorem commands_plain (cfg : Config) (p : Passage) :
    ∀ c ∈ p.commands cfg, c ≠ .flush ∧ c ≠ .stop := by
  intro c hc
  obtain ⟨i, -, rfl⟩ := List.mem_map.mp hc
  simp

/-- However the packets of each passage overtake each other or are sent again, and however the
thread takes turns with the tasks that feed it, what the sink hears is on the way to the
sender's audio, passage by passage, and is all of it once the thread has caught up. -/
theorem passages_heard (encryptBlock decryptBlock : Block → Bytes → Bytes)
    (hcipher : Inverts encryptBlock decryptBlock) (cfg : Config) (hplayer : cfg.player = true)
    (decoder : Decoder) (passages : List Passage) (inputs : List Input)
    (hstreamed : Streamed encryptBlock cfg passages inputs)
    (labels : List (Label Command Player.Sample)) (s : Playback Command Player.Sample)
    (hrun : Run (Player.Step cfg.params.alac decoder plain) (spawn cfg.params.alac true) labels s)
    (hsent : sends labels <+: playerCommands (Task.new.run decryptBlock cfg inputs).2) :
    outputs (acts labels) <+: [.flush].intercalate
        (passages.map fun p => released (prebufferPackets cfg.params.alac) (p.audio cfg decoder)) ∧
      (s.phase = .working [] → s.queue = [] →
        sends labels = playerCommands (Task.new.run decryptBlock cfg inputs).2 →
        outputs (acts labels) = [.flush].intercalate (passages.map fun p =>
          released (prebufferPackets cfg.params.alac) (p.audio cfg decoder))) := by
  have hcommands : playerCommands (Task.new.run decryptBlock cfg inputs).2 =
      [.flush].intercalate (passages.map (commands cfg)) :=
    run_streamed hcipher hplayer hstreamed fun p _ => ready_new p
  have hplain : ∀ segment ∈ passages.map (commands cfg), ∀ c ∈ segment,
      c ≠ .flush ∧ c ≠ .stop := by
    intro segment hsegment
    obtain ⟨p, -, rfl⟩ := List.mem_map.mp hsegment
    exact commands_plain cfg p
  have hheard := replay_segments cfg.params.alac decoder
    (prebufferPackets_pos cfg.params.alac) _ hplain
  rw [List.map_map, ← hcommands] at hheard
  have haudio : ((fun segment => released (prebufferPackets cfg.params.alac)
      (sounding cfg.params.alac decoder plain segment)) ∘ commands cfg) =
      fun p => released (prebufferPackets cfg.params.alac) (audio cfg decoder p) :=
    funext fun p => congrArg _ (sounding_commands cfg decoder p)
  rw [haudio] at hheard
  have hreplays := run_replays hrun
  rw [← hheard]
  constructor
  · exact (hreplays.prefix_acts.trans (prefix_replay _ hsent)).filter _
  · intro hidle hqueue hall
    rw [hreplays.acts_eq hidle hqueue, hall]

/-! ## Two packets, the second sent again -/

def heardConfig : Config :=
  { exampleConfig with
    params := { exampleConfig.params with encrypted := true, alac := longPackets } }

def twoPackets : Passage := ⟨65535, 7, 0, 2, fun _ => shortPacket, fun _ _ => by decide⟩

def heardInputs : List Input :=
  [.tick 0, .audio (twoPackets.datagram vectorEncrypt heardConfig 0),
    .resend (some (resendHeader.bytes ++ twoPackets.datagram vectorEncrypt heardConfig 1))]

theorem order_two : Order Jitter.maxLead 2 [0, 1] where
  covers i := by
    simp only [List.mem_cons, List.not_mem_nil, or_false]
    omega
  overtaken pre j post hsplit i hi := by
    have hj : j ∈ [0, 1] := by simp [hsplit]
    simp only [List.mem_cons, List.not_mem_nil, or_false] at hj
    simp only [Jitter.maxLead] at hi
    omega
  behind pre j post hsplit := by
    have hlen := congrArg List.length hsplit
    have hawaited := awaited_le_length pre
    simp at hlen
    omega

theorem streamed_two : Streamed vectorEncrypt heardConfig [twoPackets] heardInputs := by
  have hidle : twoPackets.Arrives vectorEncrypt heardConfig [] [.tick 0] := .idle trivial rfl .nil
  have hcontrol := controlTurn_resend (.new 44100) resendHeader
    (twoPackets.datagram vectorEncrypt heardConfig 1)
  rw [List.take_of_length_le (by decide)] at hcontrol
  have hresent : twoPackets.Brings vectorEncrypt heardConfig 1
      (.resend (some (resendHeader.bytes ++ twoPackets.datagram vectorEncrypt heardConfig 1))) :=
    .resent (by decide) (congrArg Prod.snd hcontrol)
  exact .last (.stream order_two hidle (by decide) (.packet hresent .nil))

/-- The first packet is played before the second is queued. -/
def heardLabels : List (Label Command Player.Sample) :=
  [.send (.frame 7 shortPacket), .receive, .check, .act (.awaitStart (some 7)),
    .act (.write [7, 7]), .act (.played 7), .send (.frame 8827 shortPacket), .receive, .check,
    .act (.write [7, 7]), .act (.played 8827)]

theorem passages_heard_two : outputs (acts heardLabels) =
    [.flush].intercalate ([twoPackets].map fun p =>
      released (prebufferPackets longPackets) (p.audio heardConfig shortDecoder)) := by
  have hcommands : sends heardLabels =
      playerCommands (Task.new.run vectorDecrypt heardConfig heardInputs).2 := by
    rw [run_streamed vector_inverts rfl streamed_two fun p _ => ready_new p]
    rfl
  have hrun : ∃ s,
      Run (Player.Step longPackets shortDecoder plain) (spawn longPackets true) heardLabels s ∧
      s.phase = .working [] ∧ s.queue = [] :=
    ⟨_, .cons (.send rfl) (.cons (.receive rfl rfl) (.cons (.handled rfl rfl rfl)
      (.cons (.act rfl) (.cons (.act rfl) (.cons (.act rfl) (.cons (.send rfl)
      (.cons (.receive rfl rfl) (.cons (.handled rfl rfl rfl) (.cons (.act rfl)
      (.cons (.act rfl) (.nil _))))))))))), rfl, rfl⟩
  obtain ⟨s, hrun, hphase, hqueue⟩ := hrun
  exact (passages_heard vectorEncrypt vectorDecrypt vector_inverts heardConfig rfl shortDecoder
    [twoPackets] heardInputs streamed_two heardLabels s hrun (hcommands ▸ List.prefix_rfl)).2
      hphase hqueue hcommands

end Passage

end OpenAirplay.Audio
