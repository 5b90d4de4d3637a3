import OpenAirplay.Wiring

/-!
# Flushes on their way

A flush goes from the connection to its audio task, from there to the playback thread and on
to the sink. What the history counts of each leg, what each queue holds, and what one step
does to them.
-/

namespace OpenAirplay

open Program Player

set_option autoImplicit false

/-! ## Counting -/

section Counts

/-- The input with which the audio task takes a flush. -/
def Audio.Input.isFlush : Audio.Input → Bool
  | .flush (some _) => true
  | _ => false

variable {ι : Type}

def isSent (a : Nat) : (ι × Call Op.Res) ⊕ Deed → Bool
  | .inl (_, ⟨.act (.sendFlush b _), _⟩) => b == a
  | _ => false

def isReset (a : Nat) : (ι × Call Op.Res) ⊕ Deed → Bool
  | .inr (.turned b input) => b == a && input.isFlush
  | _ => false

def isDeed (deed : Deed) : (ι × Call Op.Res) ⊕ Deed → Bool
  | .inl _ => false
  | .inr d => d == deed

variable (history : History ι Op.Res Deed)

/-- The flushes sent to audio task `a`. -/
def flushesSent (a : Nat) : Nat := history.countP (isSent a)

/-- How often its jitter buffer was reset. -/
def jitterResets (a : Nat) : Nat := history.countP (isReset a)

def flushesPushed (a : Nat) : Nat := history.countP (isDeed (.pushed a (.player .flush)))

/-- How often the prebuffer of player `p` was reset. -/
def prebufferResets (p : Nat) : Nat := history.countP (isDeed (.handled p .flush))

def flushesDiscarded (p : Nat) : Nat := history.countP (isDeed (.discarded p .flush))

/-- How often its sink was flushed. -/
def sinkFlushes (p : Nat) : Nat := history.countP (isDeed (.acted p .flush))

variable (step : ι × Call Op.Res) (d : Deed)

@[simp] theorem flushesSent_deed (a : Nat) :
    flushesSent (history ++ [.inr d]) a = flushesSent history a := by
  simp [flushesSent, isSent]

@[simp] theorem flushesSent_call (a : Nat) : flushesSent (history ++ [.inl step]) a =
    flushesSent history a + if isSent a (.inl step) then 1 else 0 := by
  simp [flushesSent, List.countP_singleton]

@[simp] theorem jitterResets_deed (a : Nat) : jitterResets (history ++ [.inr d]) a =
    jitterResets history a + if isReset a (.inr d : (ι × Call Op.Res) ⊕ Deed) then 1 else 0 := by
  simp [jitterResets, List.countP_singleton]

@[simp] theorem jitterResets_call (a : Nat) :
    jitterResets (history ++ [.inl step]) a = jitterResets history a := by
  simp [jitterResets, isReset]

@[simp] theorem flushesPushed_call (a : Nat) :
    flushesPushed (history ++ [.inl step]) a = flushesPushed history a := by
  simp [flushesPushed, isDeed]

@[simp] theorem flushesPushed_deed (a : Nat) : flushesPushed (history ++ [.inr d]) a =
    flushesPushed history a + if d = .pushed a (.player .flush) then 1 else 0 := by
  simp [flushesPushed, isDeed, List.countP_singleton]

@[simp] theorem prebufferResets_call (p : Nat) :
    prebufferResets (history ++ [.inl step]) p = prebufferResets history p := by
  simp [prebufferResets, isDeed]

@[simp] theorem prebufferResets_deed (p : Nat) : prebufferResets (history ++ [.inr d]) p =
    prebufferResets history p + if d = .handled p .flush then 1 else 0 := by
  simp [prebufferResets, isDeed, List.countP_singleton]

@[simp] theorem flushesDiscarded_call (p : Nat) :
    flushesDiscarded (history ++ [.inl step]) p = flushesDiscarded history p := by
  simp [flushesDiscarded, isDeed]

@[simp] theorem flushesDiscarded_deed (p : Nat) : flushesDiscarded (history ++ [.inr d]) p =
    flushesDiscarded history p + if d = .discarded p .flush then 1 else 0 := by
  simp [flushesDiscarded, isDeed, List.countP_singleton]

@[simp] theorem sinkFlushes_call (p : Nat) :
    sinkFlushes (history ++ [.inl step]) p = sinkFlushes history p := by
  simp [sinkFlushes, isDeed]

@[simp] theorem sinkFlushes_deed (p : Nat) : sinkFlushes (history ++ [.inr d]) p =
    sinkFlushes history p + if d = .acted p .flush then 1 else 0 := by
  simp [sinkFlushes, isDeed, List.countP_singleton]

end Counts

/-! ## Flushes on their way -/

/-- Those in the queue and the one in the thread's hands. -/
def Player.Playback.flushes (s : Playback Command Player.Sample) : Nat :=
  s.queue.count .flush +
    match s.phase with
    | .received command => [command].count .flush
    | _ => 0

/-- The calls of the sink left to make. -/
def Player.Playback.due (s : Playback Command Player.Sample) : Nat :=
  match s.phase with
  | .working actions => actions.count .flush
  | _ => 0

def AudioTask.leaving (t : AudioTask) : Nat := t.outbox.count (.player .flush)

namespace World

variable {ι : Type} (w : World ι)

def waiting (a : Nat) : Nat := ((w.tasks a).map fun t => t.requests.length).getD 0

def leaving (a : Nat) : Nat := ((w.tasks a).map AudioTask.leaving).getD 0

def held (p : Nat) : Nat := ((w.players p).map fun t => t.playback.flushes).getD 0

def due (p : Nat) : Nat := ((w.players p).map fun t => t.playback.due).getD 0

end World

/-! ## What a step does to them -/

namespace Player

theorem count_flush_feed (p : Playout Player.Sample) (ts : U32) (pcm : List Player.Sample) :
    List.count Player.Action.flush ((p.feed ts pcm).1 ++ [Player.Action.played ts]) = 0 := by
  simp only [Playout.feed]
  split
  · rfl
  · split <;> rfl

theorem count_flush_handle {config : AlacConfig} {decoder : Decoder} {p q : Playout Player.Sample}
    {command : Command} {actions : List (Player.Action Player.Sample)}
    (h : handle config decoder plain p command = some (actions, q)) :
    actions.count .flush = if command = .flush then 1 else 0 := by
  cases command with
  | frame ts packet =>
    simp only [handle, plain, id] at h
    cases hdecode : decoder.decode packet with
    | none =>
      rw [hdecode] at h
      cases h
      rfl
    | some pcm =>
      rw [hdecode] at h
      cases h
      exact count_flush_feed p ts _
  | silence ts =>
    cases h
    exact count_flush_feed p ts _
  | flush =>
    cases h
    rfl
  | stop => cases h

theorem handle_none {config : AlacConfig} {decoder : Decoder} {p : Playout Player.Sample}
    {command : Command} (h : handle config decoder plain p command = none) : command = .stop := by
  cases command with
  | frame ts packet =>
    simp only [handle, plain, id] at h
    cases hdecode : decoder.decode packet <;> rw [hdecode] at h <;> cases h
  | silence ts => cases h
  | flush => cases h
  | stop => rfl

end Player

/-- A flush leaves the thread's queue to be done or thrown away, and is done when the sink's
call is made. -/
theorem Stepped.flow {ι : Type} {decoders : AlacConfig → Option Decoder} {track : Option Track}
    {p : Nat} {t t' : Thread ι} {deed : Deed} (h : Stepped decoders track p t deed t')
    (history : History ι Op.Res Deed) :
    t'.playback.flushes + prebufferResets (history ++ [.inr deed]) p +
          flushesDiscarded (history ++ [.inr deed]) p =
        t.playback.flushes + prebufferResets history p + flushesDiscarded history p ∧
      prebufferResets (history ++ [.inr deed]) p + sinkFlushes history p + t.playback.due =
        prebufferResets history p + sinkFlushes (history ++ [.inr deed]) p + t'.playback.due := by
  cases h with
  | reported _ | exited _ _ | panicked _ _ _ => simp
  | played _ hphase => simp [Playback.flushes, Playback.due, hphase]
  | acted _ hphase _ =>
    simp [Playback.flushes, Playback.due, hphase, List.count_cons]
    omega
  | received _ hphase hqueue =>
    simp [Playback.flushes, Playback.due, hphase, hqueue, List.count_cons]
  | hungUp _ hphase _ _ =>
    rcases hphase with hphase | hphase <;> simp [Playback.flushes, Playback.due, hphase]
  | preempted _ hphase _ =>
    simp [Playback.flushes, Playback.due, hphase, List.count_cons]
    omega
  | handled _ hphase _ _ hhandle =>
    simp [Playback.flushes, Playback.due, hphase, List.count_cons, count_flush_handle hhandle]
    omega
  | stopped _ hphase _ _ hhandle =>
    obtain rfl := handle_none hhandle
    simp [Playback.flushes, Playback.due, hphase]
  | drained _ hphase hqueue =>
    simp [Playback.flushes, Playback.due, hphase, hqueue, List.count_cons]
    omega

/-- A thread does nothing for another one's flushes. -/
theorem Stepped.elsewhere {ι : Type} {decoders : AlacConfig → Option Decoder}
    {track : Option Track} {p : Nat} {t t' : Thread ι} {deed : Deed}
    (h : Stepped decoders track p t deed t') (history : History ι Op.Res Deed) :
    (∀ a, jitterResets (history ++ [.inr deed]) a = jitterResets history a ∧
        flushesPushed (history ++ [.inr deed]) a = flushesPushed history a) ∧
      ∀ q, q ≠ p → prebufferResets (history ++ [.inr deed]) q = prebufferResets history q ∧
        flushesDiscarded (history ++ [.inr deed]) q = flushesDiscarded history q ∧
        sinkFlushes (history ++ [.inr deed]) q = sinkFlushes history q := by
  constructor
  · intro a
    cases h <;> simp [isReset]
  · intro q hq
    cases h <;> simp [hq.symm]

namespace Audio

section Turn

variable (decryptBlock : Rtp.Block → Bytes → Bytes) {cfg : Config}

theorem flush_not_delivered (anchor : Option (U16 × U32)) (d : Jitter.Delivery Bytes) :
    Output.player .flush ∉ deliver cfg anchor d := by
  cases d with
  | packet seq frame => cases hp : cfg.player <;> cases ho : cfg.observer <;> simp [deliver, hp, ho]
  | lost seq => cases hp : cfg.player <;> simp [deliver, hp]

theorem flush_not_drained (task : Task) :
    Output.player .flush ∉ (drainDeliveries cfg task).2 := by
  intro hmem
  obtain ⟨d, _, hd⟩ := List.mem_flatMap.mp hmem
  exact flush_not_delivered task.anchor d hd

theorem flush_not_requested (task : Task) (now : Nat) :
    Output.player .flush ∉ (requestResends cfg task now).2 := by
  simp only [requestResends]
  split <;> simp

/-- A turn sends the player one flush for a flush it takes, and none otherwise. -/
theorem count_flush_turn (hplayer : cfg.player = true) (task : Task) (input : Input) :
    (task.turn decryptBlock cfg input).2.count (.player .flush) =
      if input.isFlush then 1 else 0 := by
  cases input with
  | audio datagram =>
    simp only [Task.turn]
    split
    · rfl
    · exact List.count_eq_zero.mpr (flush_not_drained _)
  | audioError => rfl
  | resend datagram =>
    cases datagram with
    | none => rfl
    | some datagram =>
      simp only [Task.turn]
      split
      · rfl
      · exact List.count_eq_zero.mpr (flush_not_drained _)
  | tick now =>
    simp only [Task.turn, List.count_append]
    rw [List.count_eq_zero.mpr (flush_not_drained _),
      List.count_eq_zero.mpr (flush_not_requested _ _)]
    rfl
  | flush flushTo =>
    cases flushTo with
    | none => rfl
    | some flushTo =>
      simp only [Task.turn, hplayer]
      rfl

end Turn

end Audio

theorem AudioTask.take_flow {t : AudioTask} {input : Audio.Input} {rest : List (Option U16)}
    (h : t.take input = some rest) :
    t.requests.length = rest.length + if input.isFlush then 1 else 0 := by
  cases input with
  | flush flushTo =>
    cases flushTo with
    | none =>
      change (if t.requests = [] ∧ t.closed = true then some [] else none) = some rest at h
      by_cases hclosed : t.requests = [] ∧ t.closed = true
      · cases (if_pos hclosed).symm.trans h
        rw [hclosed.1]
        rfl
      · cases (if_neg hclosed).symm.trans h
    | some flushTo =>
      obtain ⟨cfg, player, task, requests, closed, outbox, aborted⟩ := t
      cases requests with
      | nil => cases h
      | cons request requests =>
        change (if request = flushTo then some requests else none) = some rest at h
        by_cases hsame : request = flushTo
        · cases (if_pos hsame).symm.trans h
          rfl
        · cases (if_neg hsame).symm.trans h
  | _ =>
    cases h
    rfl

/-- A turn of the audio task takes a flush from its channel to send it on. -/
theorem AudioTask.turn_flow {decryptBlock : Rtp.Block → Bytes → Bytes} {t t' : AudioTask}
    {input : Audio.Input} (h : t.turn decryptBlock input = some t')
    (hplayer : t.cfg.player = true) :
    t.leaving = 0 ∧ t'.leaving = (if input.isFlush then 1 else 0) ∧
      t.requests.length = t'.requests.length + if input.isFlush then 1 else 0 := by
  unfold turn at h
  split at h
  · cases h
  · rename_i hready
    obtain ⟨requests, htake, rfl⟩ := Option.map_eq_some_iff.mp h
    simp only [not_or, not_not] at hready
    obtain ⟨_, houtbox, hrunning⟩ := hready
    refine ⟨?_, ?_, take_flow htake⟩
    · simp [leaving, houtbox]
    · have hstep : t.task.step decryptBlock t.cfg input = t.task.turn decryptBlock t.cfg input := by
        simp [Audio.Task.step, hrunning]
      simp only [leaving, hstep]
      exact Audio.count_flush_turn decryptBlock hplayer t.task input

namespace World

section Maps

variable {ι β : Type} {w : World ι}

theorem held_onPlayer (p : Nat) {f : Thread ι → Thread ι}
    (hf : ∀ t, (f t).playback.flushes = t.playback.flushes) : (w.onPlayer p f).held = w.held := by
  funext q
  unfold held
  rw [map_onPlayer p _ hf]

theorem due_onPlayer (p : Nat) {f : Thread ι → Thread ι}
    (hf : ∀ t, (f t).playback.due = t.playback.due) : (w.onPlayer p f).due = w.due := by
  funext q
  unfold due
  rw [map_onPlayer p _ hf]

theorem waiting_onTask (a : Nat) {f : AudioTask → AudioTask}
    (hf : ∀ t, (f t).requests.length = t.requests.length) : (w.onTask a f).waiting = w.waiting := by
  funext b
  unfold waiting
  rw [map_onTask a _ hf]

theorem leaving_onTask (a : Nat) {f : AudioTask → AudioTask}
    (hf : ∀ t, (f t).leaving = t.leaving) : (w.onTask a f).leaving = w.leaving := by
  funext b
  unfold leaving
  rw [map_onTask a _ hf]

theorem held_afterStep_self (p : Nat) (t : Thread ι) :
    (w.afterStep p t).held p = t.playback.flushes := by
  simp [held, afterStep]

theorem held_afterStep_of_ne {p q : Nat} (h : q ≠ p) (t : Thread ι) :
    (w.afterStep p t).held q = w.held q := by
  simp [held, afterStep, Function.update_of_ne h]

theorem due_afterStep_self (p : Nat) (t : Thread ι) :
    (w.afterStep p t).due p = t.playback.due := by
  simp [due, afterStep]

theorem due_afterStep_of_ne {p q : Nat} (h : q ≠ p) (t : Thread ι) :
    (w.afterStep p t).due q = w.due q := by
  simp [due, afterStep, Function.update_of_ne h]

theorem waiting_setTask (a b : Nat) (t : AudioTask) :
    waiting { w with tasks := Function.update w.tasks a (some t) } b =
      if b = a then t.requests.length else w.waiting b := by
  by_cases hb : b = a
  · simp [waiting, hb]
  · simp [waiting, hb]

theorem leaving_setTask (a b : Nat) (t : AudioTask) :
    leaving { w with tasks := Function.update w.tasks a (some t) } b =
      if b = a then t.leaving else w.leaving b := by
  by_cases hb : b = a
  · simp [leaving, hb]
  · simp [leaving, hb]

theorem held_eq {p : Nat} {t : Thread ι} (hp : w.players p = some t) :
    w.held p = t.playback.flushes := by
  simp [held, hp]

theorem due_eq {p : Nat} {t : Thread ι} (hp : w.players p = some t) : w.due p = t.playback.due := by
  simp [due, hp]

theorem waiting_eq {a : Nat} {t : AudioTask} (ha : w.tasks a = some t) :
    w.waiting a = t.requests.length := by
  simp [waiting, ha]

theorem leaving_eq {a : Nat} {t : AudioTask} (ha : w.tasks a = some t) :
    w.leaving a = t.leaving := by
  simp [leaving, ha]

end Maps

section Replies

variable {ι : Type} [DecidableEq ι] {w w' : World ι} {decoders : AlacConfig → Option Decoder}
  {i : ι} {o : Op} {r : o.Res}

theorem Replied.waiting_eq (h : Replied decoders i w o r w') (hnumbered : w.Numbered)
    (hflush : ∀ a flushTo, o ≠ .act (.sendFlush a flushTo)) : w'.waiting = w.waiting := by
  cases h with
  | @fed params observer player clientControl =>
    funext a
    by_cases ha : a = w.fresh
    · subst ha
      simp [waiting, hnumbered.fresh_task, AudioTask.spawn]
    · simp [waiting, Function.update_of_ne ha]
  | aborted | closedFlush =>
    exact waiting_onTask _ fun _ => rfl
  | sentFlush _ => exact absurd rfl (hflush _ _)
  | _ => rfl

theorem Replied.leaving_eq (h : Replied decoders i w o r w') (hnumbered : w.Numbered) :
    w'.leaving = w.leaving := by
  cases h with
  | @fed params observer player clientControl =>
    funext a
    by_cases ha : a = w.fresh
    · subst ha
      simp [leaving, hnumbered.fresh_task, AudioTask.leaving, AudioTask.spawn]
    · simp [leaving, Function.update_of_ne ha]
  | aborted | closedFlush | sentFlush _ =>
    exact leaving_onTask _ fun _ => rfl
  | _ => rfl

theorem flushes_spawn (config : AlacConfig) (built : Bool) :
    (Player.spawn config built : Playback Command Player.Sample).flushes = 0 := by
  cases built <;> rfl

theorem due_spawn (config : AlacConfig) (built : Bool) :
    (Player.spawn config built : Playback Command Player.Sample).due = 0 := by
  cases built <;> rfl

theorem flushes_send {s : Playback Command Player.Sample} {command : Command}
    (h : command ≠ .flush) : (s.send command).flushes = s.flushes := by
  simp [Playback.flushes, Playback.send, h]

theorem Replied.held_eq (h : Replied decoders i w o r w') (hnumbered : w.Numbered) :
    w'.held = w.held := by
  cases h with
  | @spawned config sink =>
    funext p
    by_cases hp : p = w.fresh
    · subst hp
      simp [held, hnumbered.fresh_player, Thread.spawn, flushes_spawn]
    · simp [held, Function.update_of_ne hp]
  | setStop =>
    exact held_onPlayer _ fun _ => rfl
  | sentStop =>
    exact held_onPlayer _ fun _ => flushes_send (by simp)
  | _ => rfl

theorem Replied.due_eq (h : Replied decoders i w o r w') (hnumbered : w.Numbered) :
    w'.due = w.due := by
  cases h with
  | @spawned config sink =>
    funext p
    by_cases hp : p = w.fresh
    · subst hp
      simp [due, hnumbered.fresh_player, Thread.spawn, due_spawn]
    · simp [due, Function.update_of_ne hp]
  | setStop | sentStop =>
    exact due_onPlayer _ fun _ => rfl
  | _ => rfl

end Replies

end World

end OpenAirplay
