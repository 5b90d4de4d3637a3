import OpenAirplay.Player
import OpenAirplay.Shared.Transitions

/-!
# The playback thread

The loop of the thread, one step at a time, against the tasks that queue commands for it
and set its stop flag. Commands and samples may carry more than their content: `Reading`
says what of them the thread looks at.
-/

namespace OpenAirplay.Player

open Transitions

set_option autoImplicit false

/-- How the thread reads a queued command, and what becomes of the samples it decodes to. -/
structure Reading (κ σ : Type) where
  command : κ → Command
  sample : κ → Sample → σ

def plain : Reading Command Sample := ⟨id, fun _ x => x⟩

/-- `working []` waits for the next command, `draining` is a thread without a decoder. -/
inductive Phase (κ σ : Type) where
  | working (actions : List (Action σ))
  | received (command : κ)
  | draining
  | stopped

structure Playback (κ σ : Type) where
  queue : List κ
  stop : Bool
  connected : Bool
  phase : Phase κ σ
  playout : Playout σ

def Playback.send {κ σ : Type} (s : Playback κ σ) (command : κ) : Playback κ σ :=
  { s with queue := s.queue ++ [command] }

inductive Label (κ σ : Type) where
  | send (command : κ)
  | setStop
  | disconnect
  | receive
  | check
  | act (action : Action σ)

/-- The thread as it is spawned; `built` says whether its decoder could be. -/
def spawn {κ σ : Type} (config : AlacConfig) (built : Bool) : Playback κ σ where
  queue := []
  stop := false
  connected := true
  phase := if built then .working [] else .draining
  playout := .new (prebufferPackets config)

def silenceFrame (config : AlacConfig) (decoder : Decoder) : List Sample :=
  .replicate (config.framesPerPacket.toNat * decoder.channels) 0

/-- The PCM of a command; an undecodable packet has none. -/
def pcm (config : AlacConfig) (decoder : Decoder) : Command → Option (U32 × List Sample)
  | .frame ts packet => (decoder.decode packet).map fun pcm => (ts, pcm)
  | .silence ts => some (ts, silenceFrame config decoder)
  | .flush | .stop => none

section Thread

variable {κ σ : Type} (config : AlacConfig) (decoder : Decoder) (reading : Reading κ σ)

/-- What the thread does for one command; nothing if it stops. -/
def handle (p : Playout σ) (command : κ) : Option (List (Action σ) × Playout σ) :=
  match reading.command command with
  | .frame ts packet =>
    match decoder.decode packet with
    | none => some ([], p)
    | some pcm =>
      let (actions, p) := p.feed ts (pcm.map (reading.sample command))
      some (actions ++ [.played ts], p)
  | .silence ts =>
    let (actions, p) := p.feed ts ((silenceFrame config decoder).map (reading.sample command))
    some (actions ++ [.played ts], p)
  | .flush => some ([.flush], p.reset)
  | .stop => none

/-- One step of the thread, or of a task that holds a sender or the player. -/
inductive Step : Playback κ σ → Label κ σ → Playback κ σ → Prop where
  | send {s : Playback κ σ} {command : κ} :
    s.connected = true → Step s (.send command) (s.send command)
  | setStop {s : Playback κ σ} : Step s .setStop { s with stop := true }
  | disconnect {s : Playback κ σ} : Step s .disconnect { s with connected := false }
  | receive {s : Playback κ σ} {command : κ} {rest : List κ} :
    s.phase = .working [] → s.queue = command :: rest →
      Step s .receive { s with queue := rest, phase := .received command }
  | hungUp {s : Playback κ σ} :
    s.phase = .working [] → s.queue = [] → s.connected = false →
      Step s .receive { s with phase := .stopped }
  | preempted {s : Playback κ σ} {command : κ} :
    s.phase = .received command → s.stop = true → Step s .check { s with phase := .stopped }
  | handled {s : Playback κ σ} {command : κ} {actions : List (Action σ)} {p : Playout σ} :
    s.phase = .received command → s.stop = false →
      handle config decoder reading s.playout command = some (actions, p) →
      Step s .check { s with phase := .working actions, playout := p }
  | stopped {s : Playback κ σ} {command : κ} :
    s.phase = .received command → s.stop = false →
      handle config decoder reading s.playout command = none →
      Step s .check { s with phase := .stopped }
  | act {s : Playback κ σ} {action : Action σ} {actions : List (Action σ)} :
    s.phase = .working (action :: actions) →
      Step s (.act action) { s with phase := .working actions }
  | drain {s : Playback κ σ} {command : κ} {rest : List κ} :
    s.phase = .draining → s.queue = command :: rest → Step s .receive { s with queue := rest }

/-- What the thread does for these commands if nothing stops it; no state if one of them does. -/
def replay : Playout σ → List κ → List (Action σ) × Option (Playout σ)
  | p, [] => ([], some p)
  | p, command :: rest =>
    match handle config decoder reading p command with
    | none => ([], none)
    | some (actions, p) =>
      let (more, last) := replay p rest
      (actions ++ more, last)

end Thread

/-- The samples passed to the sink. -/
def written {σ : Type} : List (Action σ) → List σ
  | [] => []
  | .write chunk :: actions => chunk ++ written actions
  | _ :: actions => written actions

section Written

variable {σ : Type}

@[simp] theorem written_nil : written ([] : List (Action σ)) = [] := rfl

@[simp] theorem written_append (actions more : List (Action σ)) :
    written (actions ++ more) = written actions ++ written more := by
  induction actions with
  | nil => rfl
  | cons action actions ih => cases action <;> simp [written, ih]

@[simp] theorem written_played (ts : U32) : written [(.played ts : Action σ)] = [] := rfl

@[simp] theorem written_flush : written [(.flush : Action σ)] = [] := rfl

theorem mem_written {actions : List (Action σ)} {x : σ} :
    x ∈ written actions ↔ ∃ chunk, .write chunk ∈ actions ∧ x ∈ chunk := by
  induction actions with
  | nil => simp
  | cons action actions ih => cases action <;> simp [written, ih, or_and_right, exists_or]

end Written

/-! ## Prebuffering -/

namespace Prebuffer

variable {σ : Type}

theorem push_of_released {pb : Prebuffer σ} (h : pb.released = true) (pcm : List σ) :
    pb.push pcm = (some pcm, pb) := by
  rw [push, if_pos h]

theorem push_of_reached {pb : Prebuffer σ} (h : pb.released = false)
    (hreach : pb.thresholdPackets ≤ pb.packets + 1) (pcm : List σ) :
    pb.push pcm = (some (pb.buffer ++ pcm),
      { pb with packets := pb.packets + 1, buffer := [], released := true }) := by
  rw [push, if_neg (by simp [h])]
  exact if_pos hreach

theorem push_of_below {pb : Prebuffer σ} (h : pb.released = false)
    (hbelow : pb.packets + 1 < pb.thresholdPackets) (pcm : List σ) :
    pb.push pcm =
      (none, { pb with packets := pb.packets + 1, buffer := pb.buffer ++ pcm }) := by
  rw [push, if_neg (by simp [h])]
  exact if_neg (Nat.not_le_of_lt hbelow)

theorem push_cases (pb : Prebuffer σ) (pcm : List σ) :
    (pb.released = true ∧ pb.push pcm = (some pcm, pb)) ∨
    (pb.released = false ∧ pb.thresholdPackets ≤ pb.packets + 1 ∧
      pb.push pcm = (some (pb.buffer ++ pcm),
        { pb with packets := pb.packets + 1, buffer := [], released := true })) ∨
    (pb.released = false ∧ pb.packets + 1 < pb.thresholdPackets ∧
      pb.push pcm = (none, { pb with packets := pb.packets + 1, buffer := pb.buffer ++ pcm })) := by
  rcases Bool.eq_false_or_eq_true pb.released with h | h
  · exact .inl ⟨h, push_of_released h pcm⟩
  · rcases Nat.lt_or_ge (pb.packets + 1) pb.thresholdPackets with hbelow | hreach
    · exact .inr (.inr ⟨h, hbelow, push_of_below h hbelow pcm⟩)
    · exact .inr (.inl ⟨h, hreach, push_of_reached h hreach pcm⟩)

/-- Below its threshold until it is released, and empty from then on. -/
structure Sound (pb : Prebuffer σ) : Prop where
  positive : 0 < pb.thresholdPackets
  released : pb.released = true → pb.buffer = []
  below : pb.released = false → pb.packets < pb.thresholdPackets

theorem Sound.new {threshold : Nat} (h : 0 < threshold) : (new threshold : Prebuffer σ).Sound :=
  ⟨h, fun _ => rfl, fun _ => h⟩

theorem Sound.reset {pb : Prebuffer σ} (h : pb.Sound) : pb.reset.Sound :=
  ⟨h.positive, fun _ => rfl, fun _ => h.positive⟩

theorem Sound.push {pb : Prebuffer σ} (h : pb.Sound) (pcm : List σ) : (pb.push pcm).2.Sound := by
  rcases pb.push_cases pcm with ⟨_, heq⟩ | ⟨_, _, heq⟩ | ⟨hr, hbelow, heq⟩ <;> rw [heq]
  · exact h
  · exact ⟨h.positive, fun _ => rfl, by simp⟩
  · exact ⟨h.positive, by simp [hr], fun _ => hbelow⟩

theorem push_thresholdPackets (pb : Prebuffer σ) (pcm : List σ) :
    (pb.push pcm).2.thresholdPackets = pb.thresholdPackets := by
  rcases pb.push_cases pcm with ⟨_, heq⟩ | ⟨_, _, heq⟩ | ⟨_, _, heq⟩ <;> rw [heq]

theorem push_mem {pb : Prebuffer σ} {pcm : List σ} {x : σ}
    (h : x ∈ (pb.push pcm).1.getD [] ∨ x ∈ (pb.push pcm).2.buffer) : x ∈ pb.buffer ∨ x ∈ pcm := by
  rcases pb.push_cases pcm with ⟨_, heq⟩ | ⟨_, _, heq⟩ | ⟨_, _, heq⟩ <;> rw [heq] at h
  · exact h.symm
  · simpa using h
  · simpa using h

/-- The prebuffer lets nothing of itself and these packets out, or there is nothing in them. -/
def Keeps (pb : Prebuffer σ) (pcms : List (List σ)) : Prop :=
  (pb.released = false ∧ pb.packets + pcms.length < pb.thresholdPackets) ∨
    pb.buffer ++ pcms.flatten = []

theorem Sound.keeps_nil {pb : Prebuffer σ} (h : pb.Sound) : pb.Keeps [] := by
  cases hreleased : pb.released with
  | true => exact .inr (by simp [h.released hreleased])
  | false => exact .inl ⟨hreleased, h.below hreleased⟩

theorem Sound.keeps_cons {pb : Prebuffer σ} (h : pb.Sound) (pcm : List σ) (pcms : List (List σ)) :
    pb.Keeps (pcm :: pcms) ↔ (pb.push pcm).1.getD [] = [] ∧ (pb.push pcm).2.Keeps pcms := by
  rcases pb.push_cases pcm with ⟨hr, heq⟩ | ⟨hr, hreach, heq⟩ | ⟨hr, hbelow, heq⟩ <;> rw [heq]
  · simp [Keeps, hr, h.released hr]
  · have hnot : ¬pb.packets + (pcms.length + 1) < pb.thresholdPackets := by omega
    simp [Keeps, hr, hnot, and_assoc]
  · have hcomm : pb.packets + (pcms.length + 1) = pb.packets + 1 + pcms.length := by omega
    simp [Keeps, hr, hcomm]

end Prebuffer

/-! ## One command -/

section Commands

variable {κ σ : Type} {config : AlacConfig} {decoder : Decoder} {reading : Reading κ σ}

theorem written_feed (p : Playout σ) (ts : U32) (pcm : List σ) :
    written (p.feed ts pcm).1 = (p.prebuffer.push pcm).1.getD [] ∧
      (p.feed ts pcm).2.prebuffer = (p.prebuffer.push pcm).2 := by
  simp only [Playout.feed]
  split
  · rename_i prebuffer hpush
    simp [hpush]
  · rename_i chunk prebuffer hpush
    split <;> simp [hpush, written]

theorem handle_pcm {p : Playout σ} {command : κ} {ts : U32} {samples : List Sample}
    (h : pcm config decoder (reading.command command) = some (ts, samples)) :
    handle config decoder reading p command =
      some ((p.feed ts (samples.map (reading.sample command))).1 ++ [.played ts],
        (p.feed ts (samples.map (reading.sample command))).2) := by
  unfold handle
  unfold pcm at h
  split at h
  · obtain ⟨samples', hdecode, heq⟩ := Option.map_eq_some_iff.mp h
    cases heq
    simp only [hdecode]
  · cases h
    rfl
  · cases h
  · cases h

variable (config decoder reading) in
theorem handle_cases (p : Playout σ) (command : κ) :
    (∃ ts samples, pcm config decoder (reading.command command) = some (ts, samples)) ∨
    (pcm config decoder (reading.command command) = none ∧
      ((reading.command command = .stop ∧ handle config decoder reading p command = none) ∨
        (reading.command command = .flush ∧
          handle config decoder reading p command = some ([.flush], p.reset)) ∨
        (reading.command command ≠ .stop ∧ reading.command command ≠ .flush ∧
          handle config decoder reading p command = some ([], p)))) := by
  unfold handle pcm
  cases hcommand : reading.command command with
  | frame ts packet =>
    cases hdecode : decoder.decode packet with
    | none => exact .inr ⟨by simp [hdecode], .inr (.inr ⟨by simp, by simp, by simp [hdecode]⟩)⟩
    | some samples => exact .inl ⟨ts, samples, by simp [hdecode]⟩
  | silence ts => exact .inl ⟨ts, _, rfl⟩
  | flush => exact .inr ⟨rfl, .inr (.inl ⟨rfl, rfl⟩)⟩
  | stop => exact .inr ⟨rfl, .inl ⟨rfl, rfl⟩⟩

theorem handle_mem {p q : Playout σ} {command : κ} {actions : List (Action σ)} {x : σ}
    (h : handle config decoder reading p command = some (actions, q))
    (hx : x ∈ written actions ∨ x ∈ q.prebuffer.buffer) :
    x ∈ p.prebuffer.buffer ∨ ∃ y, x = reading.sample command y := by
  rcases handle_cases config decoder reading p command with
    ⟨ts, samples, hpcm⟩ | ⟨_, ⟨_, heq⟩ | ⟨_, heq⟩ | ⟨_, _, heq⟩⟩
  · rw [handle_pcm hpcm] at h
    obtain ⟨rfl, rfl⟩ := Prod.mk.inj (Option.some.inj h)
    obtain ⟨hwritten, hkept⟩ := written_feed p ts (samples.map (reading.sample command))
    rw [written_append, hwritten, hkept, written_played, List.append_nil] at hx
    rcases Prebuffer.push_mem hx with hx | hx
    · exact .inl hx
    · obtain ⟨y, _, rfl⟩ := List.mem_map.mp hx
      exact .inr ⟨y, rfl⟩
  · rw [heq] at h
    cases h
  · rw [heq] at h
    obtain ⟨rfl, rfl⟩ := Prod.mk.inj (Option.some.inj h)
    rcases hx with hx | hx <;> cases hx
  · rw [heq] at h
    obtain ⟨rfl, rfl⟩ := Prod.mk.inj (Option.some.inj h)
    rcases hx with hx | hx
    · cases hx
    · exact .inl hx

theorem handle_sound {p q : Playout σ} {command : κ} {actions : List (Action σ)}
    (h : handle config decoder reading p command = some (actions, q)) (hp : p.prebuffer.Sound) :
    q.prebuffer.Sound := by
  rcases handle_cases config decoder reading p command with
    ⟨ts, samples, hpcm⟩ | ⟨_, ⟨_, heq⟩ | ⟨_, heq⟩ | ⟨_, _, heq⟩⟩
  · rw [handle_pcm hpcm] at h
    obtain ⟨rfl, rfl⟩ := Prod.mk.inj (Option.some.inj h)
    rw [(written_feed p ts _).2]
    exact hp.push _
  · rw [heq] at h
    cases h
  · rw [heq] at h
    obtain ⟨rfl, rfl⟩ := Prod.mk.inj (Option.some.inj h)
    exact hp.reset
  · rw [heq] at h
    obtain ⟨rfl, rfl⟩ := Prod.mk.inj (Option.some.inj h)
    exact hp

theorem prebufferPackets_pos (config : AlacConfig) : 0 < prebufferPackets config := by
  simp [prebufferPackets]

theorem run_sound {built : Bool} {labels : List (Label κ σ)} {s : Playback κ σ}
    (h : Run (Step config decoder reading) (spawn config built) labels s) :
    s.playout.prebuffer.Sound := by
  have hstep : ∀ (s : Playback κ σ) (l : Label κ σ) (t : Playback κ σ),
      s.playout.prebuffer.Sound → True → Step config decoder reading s l t →
        t.playout.prebuffer.Sound ∧ True := by
    intro s l t hs _ hstep
    cases hstep with
    | handled _ _ hhandle => exact ⟨handle_sound hhandle hs, trivial⟩
    | _ => exact ⟨hs, trivial⟩
  exact (h.invariant hstep (.new (prebufferPackets_pos config)) (by simp)).1

/-! ## A backlog -/

theorem replay_cons_none {p : Playout σ} {command : κ} {rest : List κ}
    (h : handle config decoder reading p command = none) :
    replay config decoder reading p (command :: rest) = ([], none) := by
  rw [replay, h]

theorem replay_cons_some {p q : Playout σ} {command : κ} {rest : List κ}
    {actions : List (Action σ)} (h : handle config decoder reading p command = some (actions, q)) :
    replay config decoder reading p (command :: rest) =
      (actions ++ (replay config decoder reading q rest).1,
        (replay config decoder reading q rest).2) := by
  rw [replay, h]

theorem replay_append (p : Playout σ) (backlog more : List κ) :
    replay config decoder reading p (backlog ++ more) =
      ((replay config decoder reading p backlog).1 ++
          ((replay config decoder reading p backlog).2.map fun q =>
            (replay config decoder reading q more).1).getD [],
        (replay config decoder reading p backlog).2.bind fun q =>
          (replay config decoder reading q more).2) := by
  induction backlog generalizing p with
  | nil => simp [replay]
  | cons command rest ih =>
    cases h : handle config decoder reading p command with
    | none =>
      simp only [List.cons_append, replay_cons_none h]
      rfl
    | some result =>
      obtain ⟨actions, q⟩ := result
      simp only [List.cons_append, replay_cons_some h, ih q, List.append_assoc]

variable (config decoder reading) in
theorem run_actions {s : Playback κ σ} {actions : List (Action σ)}
    (h : s.phase = .working actions) :
    Run (Step config decoder reading) s (actions.map .act) { s with phase := .working [] } := by
  induction actions generalizing s with
  | nil =>
    rw [← h]
    exact .nil s
  | cons action actions ih => exact .cons (.act h) (ih rfl)

variable (config decoder reading) in
/-- Left to itself and not told to stop, the thread replays its backlog. -/
theorem run_replay (s : Playback κ σ) (command : κ) (rest more : List κ)
    (hphase : s.phase = .received command) (hqueue : s.queue = rest ++ more)
    (hstop : s.stop = false) :
    ∃ labels t, Run (Step config decoder reading) s labels t ∧ (∀ l ∈ labels, ∀ c, l ≠ .send c) ∧
      ∀ action ∈ (replay config decoder reading s.playout (command :: rest)).1,
        .act action ∈ labels := by
  induction rest generalizing s command with
  | nil =>
    cases h : handle config decoder reading s.playout command with
    | none => exact ⟨[], s, .nil s, by simp, by simp [replay_cons_none h]⟩
    | some result =>
      obtain ⟨actions, q⟩ := result
      refine ⟨_, _, .cons (.handled hphase hstop h) (run_actions _ _ _ rfl), by simp, ?_⟩
      intro action haction
      rw [replay_cons_some h] at haction
      simpa [replay] using haction
  | cons next rest ih =>
    cases h : handle config decoder reading s.playout command with
    | none => exact ⟨[], s, .nil s, by simp, by simp [replay_cons_none h]⟩
    | some result =>
      obtain ⟨actions, q⟩ := result
      obtain ⟨labels, t, hrun, hsends, hacts⟩ := ih
        { s with queue := rest ++ more, phase := .received next, playout := q } next rfl rfl hstop
      refine ⟨_, t, .cons (.handled hphase hstop h)
        ((run_actions _ _ _ rfl).append (.cons (.receive rfl hqueue) hrun)), ?_, ?_⟩
      · intro l hl c
        simp only [List.mem_cons, List.mem_append, List.mem_map] at hl
        rcases hl with rfl | ⟨action, _, rfl⟩ | rfl | hl
        · simp
        · simp
        · simp
        · exact hsends l hl c
      · intro action haction
        rw [replay_cons_some h] at haction
        rcases List.mem_append.mp haction with hmem | hmem
        · simp [hmem]
        · simp [hacts action hmem]

end Commands

end OpenAirplay.Player
