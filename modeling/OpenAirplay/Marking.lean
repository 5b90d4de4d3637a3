import OpenAirplay.Playback

/-!
# Telling audio apart

The thread looks at no sample, so samples and commands can carry marks along without
changing what it does: marked runs are the plain runs, with marks.
-/

namespace OpenAirplay.Player

open Transitions

set_option autoImplicit false

section Map

variable {κ κ' σ σ' : Type} (f : κ → κ') (g : σ → σ')

def Prebuffer.map (pb : Prebuffer σ) : Prebuffer σ' := { pb with buffer := pb.buffer.map g }

def Action.map : Action σ → Action σ'
  | .awaitStart firstTs => .awaitStart firstTs
  | .write chunk => .write (chunk.map g)
  | .flush => .flush
  | .played ts => .played ts

def Playout.map (p : Playout σ) : Playout σ' := { p with prebuffer := p.prebuffer.map g }

def Phase.map : Phase κ σ → Phase κ' σ'
  | .working actions => .working (actions.map (Action.map g))
  | .received command => .received (f command)
  | .draining => .draining
  | .stopped => .stopped

def Playback.map (s : Playback κ σ) : Playback κ' σ' where
  queue := s.queue.map f
  stop := s.stop
  connected := s.connected
  phase := s.phase.map f g
  playout := s.playout.map g

def Label.map : Label κ σ → Label κ' σ'
  | .send command => .send (f command)
  | .setStop => .setStop
  | .disconnect => .disconnect
  | .receive => .receive
  | .check => .check
  | .act action => .act (action.map g)

/-- The two readings see the same of a command, and its samples correspond. -/
structure Agree (reading : Reading κ σ) (reading' : Reading κ' σ') : Prop where
  command : ∀ c, reading'.command (f c) = reading.command c
  sample : ∀ c x, reading'.sample (f c) x = g (reading.sample c x)

variable {f g}

theorem written_map (actions : List (Action σ)) :
    written (actions.map (Action.map g)) = (written actions).map g := by
  induction actions with
  | nil => rfl
  | cons action actions ih => cases action <;> simp [written, Action.map, ih]

theorem Prebuffer.push_map (pb : Prebuffer σ) (pcm : List σ) :
    (pb.map g).push (pcm.map g) = ((pb.push pcm).1.map (List.map g), (pb.push pcm).2.map g) := by
  rcases pb.push_cases pcm with ⟨hr, heq⟩ | ⟨hr, hreach, heq⟩ | ⟨hr, hbelow, heq⟩ <;> rw [heq]
  · exact @push_of_released σ' (pb.map g) hr (pcm.map g)
  · have hmap := @push_of_reached σ' (pb.map g) hr hreach (pcm.map g)
    rw [hmap]
    simp [Prebuffer.map]
  · have hmap := @push_of_below σ' (pb.map g) hr hbelow (pcm.map g)
    rw [hmap]
    simp [Prebuffer.map]

theorem Playout.feed_map (p : Playout σ) (ts : U32) (pcm : List σ) :
    (p.map g).feed ts (pcm.map g) =
      ((p.feed ts pcm).1.map (Action.map g), (p.feed ts pcm).2.map g) := by
  obtain ⟨pb, started, firstTs⟩ := p
  simp only [Playout.feed, Playout.map, Prebuffer.push_map]
  rcases pb.push pcm with ⟨chunk, pb'⟩
  cases chunk with
  | none => rfl
  | some chunk => cases started <;> rfl

variable {config : AlacConfig} {decoder : Decoder}
variable {reading : Reading κ σ} {reading' : Reading κ' σ'}

variable (config decoder) in
theorem handle_map (h : Agree f g reading reading') (p : Playout σ) (command : κ) :
    handle config decoder reading' (p.map g) (f command) =
      (handle config decoder reading p command).map fun result =>
        (result.1.map (Action.map g), result.2.map g) := by
  have hsamples : ∀ pcm : List Sample,
      pcm.map (reading'.sample (f command)) = (pcm.map (reading.sample command)).map g := by
    intro pcm
    simp [h.sample]
  unfold handle
  rw [h.command]
  cases reading.command command with
  | frame ts packet =>
    cases hdecode : decoder.decode packet with
    | none => simp only [hdecode, Option.map_some, List.map_nil]
    | some pcm =>
      simp only [hdecode, hsamples, Playout.feed_map]
      simp [Action.map]
  | silence ts =>
    simp only [hsamples, Playout.feed_map]
    simp [Action.map]
  | flush => rfl
  | stop => rfl

variable (config decoder) in
theorem replay_map (h : Agree f g reading reading') (p : Playout σ) (backlog : List κ) :
    replay config decoder reading' (p.map g) (backlog.map f) =
      ((replay config decoder reading p backlog).1.map (Action.map g),
        (replay config decoder reading p backlog).2.map (Playout.map g)) := by
  induction backlog generalizing p with
  | nil => rfl
  | cons command rest ih =>
    have hmap := handle_map config decoder h p command
    cases hhandle : handle config decoder reading p command with
    | none =>
      rw [hhandle] at hmap
      rw [List.map_cons, replay_cons_none hmap, replay_cons_none hhandle]
      rfl
    | some result =>
      obtain ⟨actions, q⟩ := result
      rw [hhandle] at hmap
      rw [List.map_cons, replay_cons_some hmap, replay_cons_some hhandle, ih]
      simp

theorem phase_map_of_received {s : Playback κ σ} {command : κ} (h : s.phase = .received command) :
    (s.map f g).phase = .received (f command) := by
  simp [Playback.map, h, Phase.map]

theorem step_map (h : Agree f g reading reading') {s t : Playback κ σ} {l : Label κ σ}
    (hstep : Step config decoder reading s l t) :
    Step config decoder reading' (s.map f g) (l.map f g) (t.map f g) := by
  cases hstep with
  | @send command hconnected =>
    have hsend : (s.send command).map f g = (s.map f g).send (f command) := by
      simp [Playback.map, Playback.send]
    rw [hsend]
    exact .send hconnected
  | setStop => exact .setStop
  | disconnect => exact .disconnect
  | receive hphase hqueue =>
    exact .receive (by simp [Playback.map, hphase, Phase.map]) (by simp [Playback.map, hqueue])
  | hungUp hphase hqueue hconnected =>
    exact .hungUp (by simp [Playback.map, hphase, Phase.map]) (by simp [Playback.map, hqueue])
      hconnected
  | preempted hphase hstop => exact .preempted (phase_map_of_received hphase) hstop
  | handled hphase hstop hhandle =>
    refine .handled (phase_map_of_received hphase) hstop ?_
    rw [Playback.map, handle_map config decoder h, hhandle]
    rfl
  | stopped hphase hstop hhandle =>
    refine .stopped (phase_map_of_received hphase) hstop ?_
    rw [Playback.map, handle_map config decoder h, hhandle]
    rfl
  | act hphase => exact .act (by simp [Playback.map, hphase, Phase.map])
  | @drain command rest hphase hqueue =>
    have hqueue' : (s.map f g).queue = f command :: rest.map f := by simp [Playback.map, hqueue]
    exact .drain (by simp [Playback.map, hphase, Phase.map]) hqueue'

theorem phase_map_working {phase : Phase κ σ} {actions : List (Action σ')}
    (h : phase.map f g = .working actions) :
    ∃ actions₀, phase = .working actions₀ ∧ actions₀.map (Action.map g) = actions := by
  cases phase with
  | working actions₀ => exact ⟨actions₀, rfl, by simpa [Phase.map] using h⟩
  | _ => cases h

theorem phase_map_received {phase : Phase κ σ} {command : κ'}
    (h : phase.map f g = .received command) :
    ∃ command₀, phase = .received command₀ ∧ f command₀ = command := by
  cases phase with
  | received command₀ => exact ⟨command₀, rfl, by simpa [Phase.map] using h⟩
  | _ => cases h

/-- A step of the image comes from a step, whose commands sent can be chosen. -/
theorem step_reflect (h : Agree f g reading reading') (pick : κ' → κ) (hpick : ∀ c, f (pick c) = c)
    {s : Playback κ σ} {l' : Label κ' σ'} {t' : Playback κ' σ'}
    (hstep : Step config decoder reading' (s.map f g) l' t') :
    ∃ l t, Step config decoder reading s l t ∧ (∀ c, l = .send c → ∃ c', c = pick c') ∧
      l.map f g = l' ∧ t.map f g = t' := by
  cases hstep with
  | @send command hconnected =>
    refine ⟨.send (pick command), _, .send hconnected, ?_, by simp [Label.map, hpick], ?_⟩
    · intro c hc
      cases hc
      exact ⟨command, rfl⟩
    · simp [Playback.map, Playback.send, hpick]
  | setStop => exact ⟨.setStop, _, .setStop, by simp, rfl, rfl⟩
  | disconnect => exact ⟨.disconnect, _, .disconnect, by simp, rfl, rfl⟩
  | receive hphase hqueue =>
    obtain ⟨actions, hphase₀, hnil⟩ := phase_map_working hphase
    rw [List.map_eq_nil_iff.mp hnil] at hphase₀
    obtain ⟨command, rest, hqueue₀, rfl, rfl⟩ := List.map_eq_cons_iff.mp hqueue
    exact ⟨.receive, _, .receive hphase₀ hqueue₀, by simp, rfl, rfl⟩
  | hungUp hphase hqueue hconnected =>
    obtain ⟨actions, hphase₀, hnil⟩ := phase_map_working hphase
    rw [List.map_eq_nil_iff.mp hnil] at hphase₀
    exact ⟨.receive, _, .hungUp hphase₀ (List.map_eq_nil_iff.mp hqueue) hconnected, by simp, rfl,
      rfl⟩
  | preempted hphase hstop =>
    obtain ⟨command, hphase₀, rfl⟩ := phase_map_received hphase
    exact ⟨.check, _, .preempted hphase₀ hstop, by simp, rfl, rfl⟩
  | handled hphase hstop hhandle =>
    obtain ⟨command, hphase₀, rfl⟩ := phase_map_received hphase
    rw [Playback.map, handle_map config decoder h] at hhandle
    obtain ⟨⟨actions, q⟩, hhandle₀, heq⟩ := Option.map_eq_some_iff.mp hhandle
    obtain ⟨rfl, rfl⟩ := Prod.mk.inj heq
    exact ⟨.check, _, .handled hphase₀ hstop hhandle₀, by simp, rfl, rfl⟩
  | stopped hphase hstop hhandle =>
    obtain ⟨command, hphase₀, rfl⟩ := phase_map_received hphase
    rw [Playback.map, handle_map config decoder h] at hhandle
    exact ⟨.check, _, .stopped hphase₀ hstop (Option.map_eq_none_iff.mp hhandle), by simp, rfl,
      rfl⟩
  | act hphase =>
    obtain ⟨actions₀, hphase₀, hcons⟩ := phase_map_working hphase
    obtain ⟨action, rest, rfl, rfl, rfl⟩ := List.map_eq_cons_iff.mp hcons
    exact ⟨.act action, _, .act hphase₀, by simp, rfl, rfl⟩
  | drain hphase hqueue =>
    have hphase₀ : s.phase = .draining := by
      cases hs : s.phase with
      | draining => rfl
      | _ =>
        simp only [Playback.map, hs] at hphase
        cases hphase
    obtain ⟨command, rest, hqueue₀, rfl, rfl⟩ := List.map_eq_cons_iff.mp hqueue
    exact ⟨.receive, _, .drain hphase₀ hqueue₀, by simp, rfl, rfl⟩

end Map

/-! ## Old and new -/

/-- Whether audio was in the player already at some moment, or came later. -/
inductive Age where
  | old
  | fresh
  deriving DecidableEq

/-- Every sample has the age of its command. -/
def aged : Reading (Age × Command) (Age × Sample) := ⟨Prod.snd, fun c x => (c.1, x)⟩

theorem agree_old : Agree (Prod.mk Age.old) (Prod.mk Age.old) plain aged :=
  ⟨fun _ => rfl, fun _ _ => rfl⟩

theorem agree_forget : Agree Prod.snd Prod.snd aged plain := ⟨fun _ => rfl, fun _ _ => rfl⟩

/-- Everything that is in the player now is old. -/
def Playback.old (s : Playback Command Sample) : Playback (Age × Command) (Age × Sample) :=
  s.map (Prod.mk .old) (Prod.mk .old)

def Playback.forget (s : Playback (Age × Command) (Age × Sample)) : Playback Command Sample :=
  s.map Prod.snd Prod.snd

/-- What is sent from now on is fresh. -/
def Label.SendsFresh (l : Label (Age × Command) (Age × Sample)) : Prop :=
  ∀ c, l = .send c → c.1 = .fresh

section Aged

variable {config : AlacConfig} {decoder : Decoder}

theorem forget_run {s t : Playback (Age × Command) (Age × Sample)}
    {labels : List (Label (Age × Command) (Age × Sample))}
    (h : Run (Step config decoder aged) s labels t) :
    Run (Step config decoder plain) s.forget (labels.map (Label.map Prod.snd Prod.snd)) t.forget :=
  h.map (f := Playback.forget) (g := Label.map Prod.snd Prod.snd)
    fun _ _ _ => step_map agree_forget

/-- Every run of the thread is one with marks, whatever the marks are so far. -/
theorem mark_run {s : Playback (Age × Command) (Age × Sample)} {t : Playback Command Sample}
    {labels : List (Label Command Sample)} (h : Run (Step config decoder plain) s.forget labels t) :
    ∃ labels' t', Run (Step config decoder aged) s labels' t' ∧
      (∀ l ∈ labels', l.SendsFresh) ∧ labels'.map (Label.map Prod.snd Prod.snd) = labels ∧
      t'.forget = t := by
  refine Run.lift ?_ h
  intro s l t hstep
  obtain ⟨l', t', hstep', hpick, hl, ht⟩ :=
    step_reflect agree_forget (Prod.mk Age.fresh) (fun _ => rfl) hstep
  refine ⟨l', t', hstep', ?_, hl, ht⟩
  rintro c rfl
  obtain ⟨c', rfl⟩ := hpick c rfl
  rfl

end Aged

end OpenAirplay.Player
