import OpenAirplay.Clock
import OpenAirplay.Playback
import OpenAirplay.Shared.Execution
import OpenAirplay.Slot

/-!
# Connections, audio tasks and playback threads

Everything that runs at once on one receiver: the connections, the audio task and the
playback thread of each stream, and between them the slot, the track anchors, the queues and
the sinks. The ALAC decoder and the block cipher are parameters.
-/

namespace OpenAirplay

open Program

set_option autoImplicit false

/-! ## The position of a playback thread -/

namespace Player

/-- Where `ts` sits within the track, nothing if it sits outside. -/
def extent (track : Track) (ts rate : U32) : Option (Duration × Duration) :=
  if rate = 0 then none
  else if track.endTs - track.start < ts - track.start then none
  else
    some (framesToDuration (ts - track.start) rate,
      framesToDuration (track.endTs - track.start) rate)

/-- `reported` is the whole second last reported. -/
structure Position where
  rate : U32
  reported : Option Nat
  deriving DecidableEq

/-- The report to send for the audio at `ts`, when the displayed second changes. -/
def Position.played (p : Position) (track : Option Track) (ts : U32) : Option Event × Position :=
  match track.bind fun track => extent track ts p.rate with
  | none => (none, p)
  | some (elapsed, duration) =>
    if p.reported = some elapsed.floor.toNat then (none, p)
    else (some (.progress elapsed duration), { p with reported := some elapsed.floor.toNat })

end Player

open Player

/-! ## The playback thread and the audio task -/

/-- `unsent` is a report made of the anchor and not yet sent, `held` says whether the session
holds the thread's sender. The queue of a thread that exited is gone with its receiver: what is
still in it, or sent to it later, is lost. -/
structure Thread (ι : Type) where
  owner : ι
  config : AlacConfig
  sink : Nat
  playback : Playback Command Player.Sample
  position : Position
  unsent : Option Event
  held : Bool
  exited : Bool

/-- `requests` are the flushes sent to the task and not taken, `outbox` what its current turn
still has to send. -/
structure AudioTask where
  cfg : Audio.Config
  player : Nat
  task : Audio.Task
  requests : List (Option U16)
  closed : Bool
  outbox : List Audio.Output
  aborted : Bool

/-- What threads and tasks do. -/
inductive Deed where
  | received (player : Nat) (command : Command)
  | hungUp (player : Nat)
  | handled (player : Nat) (command : Command)
  | discarded (player : Nat) (command : Command)
  | acted (player : Nat) (action : Player.Action Player.Sample)
  | reported (player : Nat) (event : Event)
  | exited (player : Nat)
  | panicked (player : Nat)
  | turned (task : Nat) (input : Audio.Input)
  | pushed (task : Nat) (output : Audio.Output)
  | disconnected (player : Nat)
  deriving DecidableEq

def Thread.spawn {ι : Type} (decoders : AlacConfig → Option Decoder) (owner : ι)
    (config : AlacConfig) (sink : Nat) : Thread ι where
  owner := owner
  config := config
  sink := sink
  playback := Player.spawn config (decoders config).isSome
  position := ⟨config.sampleRate, none⟩
  unsent := none
  held := true
  exited := false

def AudioTask.spawn (params : Audio.StreamParams) (observer : Bool) (player : Nat)
    (clientControl : SocketAddr) : AudioTask where
  cfg := ⟨params, true, observer, clientControl⟩
  player := player
  task := .new
  requests := []
  closed := false
  outbox := []
  aborted := false

section Machines

variable {ι : Type} (decoders : AlacConfig → Option Decoder)
  (decryptBlock : Rtp.Block → Bytes → Bytes)

/-- The next step of the loop of the thread, where `await_start_instant` returns. -/
def Thread.loop (track : Option Track) (p : Nat) (t : Thread ι) : Option (Deed × Thread ι) :=
  let s := t.playback
  match s.phase with
  | .working (action :: actions) =>
    let t := { t with playback := { s with phase := .working actions } }
    match action with
    | .played ts =>
      let (unsent, position) := t.position.played track ts
      some (.acted p action, { t with position := position, unsent := unsent })
    | _ => some (.acted p action, t)
  | .working [] =>
    match s.queue with
    | command :: rest =>
      some (.received p command,
        { t with playback := { s with queue := rest, phase := .received command } })
    | [] =>
      if s.connected then none
      else some (.hungUp p, { t with playback := { s with phase := .stopped } })
  | .received command =>
    if s.stop then some (.discarded p command, { t with playback := { s with phase := .stopped } })
    else
      (decoders t.config).map fun decoder =>
        match handle t.config decoder plain s.playout command with
        | some (actions, playout) =>
          (.handled p command,
            { t with playback := { s with phase := .working actions, playout := playout } })
        | none => (.handled p command, { t with playback := { s with phase := .stopped } })
  | .draining =>
    match s.queue with
    | command :: rest =>
      some (.discarded p command, { t with playback := { s with queue := rest } })
    | [] =>
      if s.connected then none
      else some (.hungUp p, { t with playback := { s with phase := .stopped } })
  | .stopped => some (.exited p, { t with exited := true })

/-- A report already made is sent first; a thread that returned does nothing more. -/
def Thread.next (track : Option Track) (p : Nat) (t : Thread ι) : Option (Deed × Thread ι) :=
  if t.exited then none
  else
    match t.unsent with
    | some event => some (.reported p event, { t with unsent := none })
    | none => t.loop decoders track p

/-- Or it panics, in `play_time`, with the clock as the thread finds it, and the thread ends where
it is. The clock is not part of the `World`: it comes with the move. -/
def Thread.panic (clock : ClockModel) (p : Nat) (t : Thread ι) : Option (Deed × Thread ι) :=
  if t.exited ∨ t.unsent ≠ none ∨ clock.sampleRate ≠ t.config.sampleRate then none
  else
    match t.playback.phase with
    | .working (.awaitStart (some firstTs) :: _) =>
      match clock.playTime firstTs with
      | .error _ => some (.panicked p, { t with exited := true })
      | .ok _ => none
    | _ => none

/-- What a turn on this input leaves of the flush channel; nothing if the input is not there. -/
def AudioTask.take (t : AudioTask) : Audio.Input → Option (List (Option U16))
  | .flush (some flushTo) =>
    match t.requests with
    | [] => none
    | request :: rest => if request = flushTo then some rest else none
  | .flush none => if t.requests = [] ∧ t.closed then some [] else none
  | _ => some t.requests

/-- One turn of the loop, when the last one is done. An aborted task takes none. -/
def AudioTask.turn (t : AudioTask) (input : Audio.Input) : Option AudioTask :=
  if t.aborted ∨ t.outbox ≠ [] ∨ t.task.running = false then none
  else
    (t.take input).map fun requests =>
      let (task, out) := t.task.step decryptBlock t.cfg input
      { t with task := task, requests := requests, outbox := out }

def AudioTask.ended (t : AudioTask) : Bool :=
  t.outbox.isEmpty && (t.aborted || !t.task.running)

end Machines

/-! ## All of them together -/

/-- `sinks` are the sinks made and not yet dropped; players, sinks and tasks are numbered
from one counter. -/
structure World (ι : Type) where
  slot : Bool
  track : ι → Option Track
  fresh : Nat
  players : Nat → Option (Thread ι)
  tasks : Nat → Option AudioTask
  sinks : List Nat

inductive Move where
  | player (player : Nat)
  | panic (player : Nat) (clock : ClockModel)
  | audio (task : Nat) (input : Audio.Input)
  | push (task : Nat)
  | disconnect (player : Nat)

namespace World

variable {ι : Type}

def new : World ι where
  slot := false
  track _ := none
  fresh := 0
  players _ := none
  tasks _ := none
  sinks := []

def onPlayer (w : World ι) (p : Nat) (f : Thread ι → Thread ι) : World ι :=
  { w with players := Function.update w.players p ((w.players p).map f) }

def onTask (w : World ι) (a : Nat) (f : AudioTask → AudioTask) : World ι :=
  { w with tasks := Function.update w.tasks a ((w.tasks a).map f) }

/-- The next number, if that is the answer. -/
def number (w : World ι) (r : Nat) : Option (World ι) :=
  if r = w.fresh then some { w with fresh := w.fresh + 1 } else none

theorem number_eq_some {w w' : World ι} {r : Nat} (h : w.number r = some w') :
    r = w.fresh ∧ w' = { w with fresh := w.fresh + 1 } := by
  unfold number at h
  split at h
  · rename_i hr
    exact ⟨hr, (Option.some.inj h).symm⟩
  · cases h

variable [DecidableEq ι]

/-- What an operation of connection `i` does apart from the slot; nothing if it cannot
have this answer yet. A flush sent to a task that returned is never taken. -/
def reply (decoders : AlacConfig → Option Decoder) (i : ι) (w : World ι) :
    (o : Op) → o.Res → Option (World ι)
  | .ask (.makeSink _ _), sink =>
    (w.number sink).map fun w => { w with sinks := sink :: w.sinks }
  | .ask (.spawnPlayer config sink), player =>
    (w.number player).map fun w =>
      { w with
        players := Function.update w.players player (some (.spawn decoders i config sink)) }
  | .ask (.spawnAudio params observer player clientControl), task =>
    (w.number task).map fun w =>
      { w with
        tasks := Function.update w.tasks task
          (some (.spawn params observer player clientControl)) }
  | .ask .spawnControl, task | .ask (.spawnTiming _), task => w.number task
  | .ask .compareExchange, _ | .ask .random, _ | .ask (.bindThree _), _ => some w
  | .act (.setTrack track), _ => some { w with track := Function.update w.track i track }
  | .act (.setStop p), _ =>
    some (w.onPlayer p fun t => { t with playback := { t.playback with stop := true } })
  | .act (.sendStop p), _ =>
    some (w.onPlayer p fun t => { t with playback := t.playback.send .stop, held := false })
  | .act (.join p), _ => if (w.players p).any Thread.exited then some w else none
  | .act (.abort a), _ => some (w.onTask a fun t => { t with aborted := true })
  | .act (.sendFlush a flushTo), _ =>
    if (w.tasks a).isSome then
      some (w.onTask a fun t => { t with requests := t.requests ++ [flushTo] })
    else none
  | .act (.closeFlush a), _ => some (w.onTask a fun t => { t with closed := true })
  | .act .releaseSlot, _ | .act (.send _), _ => some w

def call (decoders : AlacConfig → Option Decoder) (i : ι) (w : World ι) (o : Op) (r : o.Res) :
    Option (World ι) :=
  (slotAfter w.slot ⟨o, r⟩).bind fun slot =>
    (w.reply decoders i o r).map fun w => { w with slot := slot }

/-- Nobody can send to the thread any more. -/
def deserted (w : World ι) (p : Nat) : Bool :=
  (w.players p).any (fun t => !t.held) &&
    (List.range w.fresh).all fun a => (w.tasks a).all fun t => t.player != p || t.ended

def deliver (w : World ι) (p : Nat) : Audio.Output → World ι
  | .player command => w.onPlayer p fun t => { t with playback := t.playback.send command }
  | _ => w

/-- The sink goes with the thread that returns or panics. -/
def afterStep (w : World ι) (p : Nat) (t : Thread ι) : World ι :=
  { w with
    players := Function.update w.players p (some t)
    sinks := if t.exited then w.sinks.erase t.sink else w.sinks }

def move (decoders : AlacConfig → Option Decoder) (decryptBlock : Rtp.Block → Bytes → Bytes)
    (w : World ι) : Move → Option (Deed × World ι)
  | .player p =>
    (w.players p).bind fun t =>
      (t.next decoders (w.track t.owner) p).map fun (deed, t) => (deed, w.afterStep p t)
  | .panic p clock =>
    (w.players p).bind fun t => (t.panic clock p).map fun (deed, t) => (deed, w.afterStep p t)
  | .audio a input =>
    (w.tasks a).bind fun t =>
      (t.turn decryptBlock input).map fun t =>
        (.turned a input, { w with tasks := Function.update w.tasks a (some t) })
  | .push a =>
    (w.tasks a).bind fun t =>
      match t.outbox with
      | [] => none
      | output :: rest =>
        some (.pushed a output,
          World.deliver
            { w with tasks := Function.update w.tasks a (some { t with outbox := rest }) }
            t.player output)
  | .disconnect p =>
    if w.deserted p then
      some (.disconnected p, w.onPlayer p fun t =>
        { t with playback := { t.playback with connected := false } })
    else none

/-! ## What a step can do -/

/-- Operations that leave everything but the slot alone. -/
def isIdle : Op → Bool
  | .ask .compareExchange | .ask .random | .ask (.bindThree _) | .act .releaseSlot
  | .act (.send _) => true
  | _ => false

inductive Replied (decoders : AlacConfig → Option Decoder) (i : ι) (w : World ι) :
    (o : Op) → o.Res → World ι → Prop where
  | idle {o : Op} {r : o.Res} : isIdle o → Replied decoders i w o r w
  | numbered {o : Op} {r : o.Res} :
    (o = .ask .spawnControl ∨ ∃ target, o = .ask (.spawnTiming target)) →
      Replied decoders i w o r { w with fresh := w.fresh + 1 }
  | madeSink {rate : U32} {channels : BitVec 8} :
    Replied decoders i w (.ask (.makeSink rate channels)) w.fresh
      { w with fresh := w.fresh + 1, sinks := w.fresh :: w.sinks }
  | spawned {config : AlacConfig} {sink : Nat} :
    Replied decoders i w (.ask (.spawnPlayer config sink)) w.fresh
      { w with
        fresh := w.fresh + 1
        players := Function.update w.players w.fresh (some (.spawn decoders i config sink)) }
  | fed {params : Audio.StreamParams} {observer : Bool} {player : Nat}
    {clientControl : SocketAddr} :
    Replied decoders i w (.ask (.spawnAudio params observer player clientControl)) w.fresh
      { w with
        fresh := w.fresh + 1
        tasks := Function.update w.tasks w.fresh
          (some (.spawn params observer player clientControl)) }
  | anchored {track : Option Track} {r : Unit} :
    Replied decoders i w (.act (.setTrack track)) r
      { w with track := Function.update w.track i track }
  | setStop {p : Nat} {r : Unit} :
    Replied decoders i w (.act (.setStop p)) r
      (w.onPlayer p fun t => { t with playback := { t.playback with stop := true } })
  | sentStop {p : Nat} {r : Unit} :
    Replied decoders i w (.act (.sendStop p)) r
      (w.onPlayer p fun t => { t with playback := t.playback.send .stop, held := false })
  | joined {p : Nat} {t : Thread ι} {r : Unit} : w.players p = some t → t.exited = true →
    Replied decoders i w (.act (.join p)) r w
  | aborted {a : Nat} {r : Unit} :
    Replied decoders i w (.act (.abort a)) r (w.onTask a fun t => { t with aborted := true })
  | sentFlush {a : Nat} {flushTo : Option U16} {t : AudioTask} {r : Unit} : w.tasks a = some t →
    Replied decoders i w (.act (.sendFlush a flushTo)) r
      (w.onTask a fun t => { t with requests := t.requests ++ [flushTo] })
  | closedFlush {a : Nat} {r : Unit} :
    Replied decoders i w (.act (.closeFlush a)) r (w.onTask a fun t => { t with closed := true })

theorem replied {decoders : AlacConfig → Option Decoder} {i : ι} {w w' : World ι} {o : Op}
    {r : o.Res} (h : w.reply decoders i o r = some w') : Replied decoders i w o r w' := by
  cases o with
  | ask query =>
    cases query with
    | makeSink rate channels =>
      obtain ⟨w₁, hnumber, rfl⟩ := Option.map_eq_some_iff.mp h
      obtain ⟨rfl, rfl⟩ := number_eq_some hnumber
      exact .madeSink
    | spawnPlayer config sink =>
      obtain ⟨w₁, hnumber, rfl⟩ := Option.map_eq_some_iff.mp h
      obtain ⟨rfl, rfl⟩ := number_eq_some hnumber
      exact .spawned
    | spawnAudio params observer player clientControl =>
      obtain ⟨w₁, hnumber, rfl⟩ := Option.map_eq_some_iff.mp h
      obtain ⟨rfl, rfl⟩ := number_eq_some hnumber
      exact .fed
    | spawnControl =>
      obtain ⟨rfl, rfl⟩ := number_eq_some h
      exact .numbered (.inl rfl)
    | spawnTiming target =>
      obtain ⟨rfl, rfl⟩ := number_eq_some h
      exact .numbered (.inr ⟨target, rfl⟩)
    | _ =>
      cases h
      exact .idle rfl
  | act effect =>
    cases effect with
    | join p =>
      simp only [reply] at h
      split at h
      · rename_i hexited
        cases h
        cases ht : w.players p with
        | none =>
          rw [ht] at hexited
          cases hexited
        | some t =>
          rw [ht] at hexited
          exact .joined ht hexited
      · cases h
    | sendFlush a flushTo =>
      simp only [reply] at h
      split at h
      · rename_i hsome
        obtain ⟨t, ht⟩ := Option.isSome_iff_exists.mp hsome
        cases h
        exact .sentFlush ht
      · cases h
    | setTrack track =>
      cases h
      exact .anchored
    | setStop p =>
      cases h
      exact .setStop
    | sendStop p =>
      cases h
      exact .sentStop
    | abort a =>
      cases h
      exact .aborted
    | closeFlush a =>
      cases h
      exact .closedFlush
    | releaseSlot =>
      cases h
      exact .idle rfl
    | send event =>
      cases h
      exact .idle rfl

theorem call_eq_some {decoders : AlacConfig → Option Decoder} {i : ι} {w w' : World ι} {o : Op}
    {r : o.Res} (h : w.call decoders i o r = some w') :
    ∃ slot w₁, slotAfter w.slot ⟨o, r⟩ = some slot ∧ Replied decoders i w o r w₁ ∧
      w' = { w₁ with slot := slot } := by
  obtain ⟨slot, hslot, hreply⟩ := Option.bind_eq_some_iff.mp h
  obtain ⟨w₁, hw₁, rfl⟩ := Option.map_eq_some_iff.mp hreply
  exact ⟨slot, w₁, hslot, replied hw₁, rfl⟩

end World

/-- The steps of a playback thread, with the anchor it reads. -/
inductive Stepped {ι : Type} (decoders : AlacConfig → Option Decoder) (track : Option Track)
    (p : Nat) (t : Thread ι) : Deed → Thread ι → Prop where
  | reported {event : Event} : t.unsent = some event →
    Stepped decoders track p t (.reported p event) { t with unsent := none }
  | played {ts : U32} {actions : List (Player.Action Player.Sample)} :
    t.unsent = none → t.playback.phase = .working (.played ts :: actions) →
      Stepped decoders track p t (.acted p (.played ts))
        { t with
          playback := { t.playback with phase := .working actions }
          position := (t.position.played track ts).2
          unsent := (t.position.played track ts).1 }
  | acted {action : Player.Action Player.Sample} {actions : List (Player.Action Player.Sample)} :
    t.unsent = none → t.playback.phase = .working (action :: actions) →
      (∀ ts, action ≠ .played ts) →
        Stepped decoders track p t (.acted p action)
          { t with playback := { t.playback with phase := .working actions } }
  | received {command : Command} {rest : List Command} :
    t.unsent = none → t.playback.phase = .working [] → t.playback.queue = command :: rest →
      Stepped decoders track p t (.received p command)
        { t with playback := { t.playback with queue := rest, phase := .received command } }
  | hungUp : t.unsent = none → (t.playback.phase = .working [] ∨ t.playback.phase = .draining) →
    t.playback.queue = [] → t.playback.connected = false →
      Stepped decoders track p t (.hungUp p)
        { t with playback := { t.playback with phase := .stopped } }
  | preempted {command : Command} :
    t.unsent = none → t.playback.phase = .received command → t.playback.stop = true →
      Stepped decoders track p t (.discarded p command)
        { t with playback := { t.playback with phase := .stopped } }
  | handled {command : Command} {decoder : Decoder}
    {actions : List (Player.Action Player.Sample)} {playout : Playout Player.Sample} :
    t.unsent = none → t.playback.phase = .received command → t.playback.stop = false →
      decoders t.config = some decoder →
        handle t.config decoder plain t.playback.playout command = some (actions, playout) →
          Stepped decoders track p t (.handled p command)
            { t with playback := { t.playback with phase := .working actions, playout := playout } }
  | stopped {command : Command} {decoder : Decoder} :
    t.unsent = none → t.playback.phase = .received command → t.playback.stop = false →
      decoders t.config = some decoder →
        handle t.config decoder plain t.playback.playout command = none →
          Stepped decoders track p t (.handled p command)
            { t with playback := { t.playback with phase := .stopped } }
  | drained {command : Command} {rest : List Command} :
    t.unsent = none → t.playback.phase = .draining → t.playback.queue = command :: rest →
      Stepped decoders track p t (.discarded p command)
        { t with playback := { t.playback with queue := rest } }
  | exited : t.unsent = none → t.playback.phase = .stopped →
    Stepped decoders track p t (.exited p) { t with exited := true }
  | panicked {firstTs : U32} {actions : List (Player.Action Player.Sample)} :
    t.unsent = none → t.playback.phase = .working (.awaitStart (some firstTs) :: actions) →
      t.config.sampleRate = 0 → Stepped decoders track p t (.panicked p) { t with exited := true }

theorem Thread.loop_stepped {ι : Type} {decoders : AlacConfig → Option Decoder}
    {track : Option Track} {p : Nat} {t t' : Thread ι} {deed : Deed} (hunsent : t.unsent = none)
    (h : t.loop decoders track p = some (deed, t')) : Stepped decoders track p t deed t' := by
  simp only [Thread.loop] at h
  split at h
  · rename_i action actions hphase
    split at h
    · cases h
      exact .played hunsent hphase
    · rename_i hother
      cases h
      exact .acted hunsent hphase hother
  · rename_i hphase
    split at h
    · rename_i hqueue
      cases h
      exact .received hunsent hphase hqueue
    · rename_i hqueue
      split at h
      · cases h
      · rename_i hconnected
        cases h
        exact .hungUp hunsent (.inl hphase) hqueue (by simpa using hconnected)
  · rename_i command hphase
    split at h
    · rename_i hstop
      cases h
      exact .preempted hunsent hphase hstop
    · rename_i hstop
      have hgoing : t.playback.stop = false := by simpa using hstop
      obtain ⟨decoder, hdecoder, h⟩ := Option.map_eq_some_iff.mp h
      split at h
      · rename_i hhandle
        cases h
        exact .handled hunsent hphase hgoing hdecoder hhandle
      · rename_i hhandle
        cases h
        exact .stopped hunsent hphase hgoing hdecoder hhandle
  · rename_i hphase
    split at h
    · rename_i hqueue
      cases h
      exact .drained hunsent hphase hqueue
    · rename_i hqueue
      split at h
      · cases h
      · rename_i hconnected
        cases h
        exact .hungUp hunsent (.inr hphase) hqueue (by simpa using hconnected)
  · rename_i hphase
    cases h
    exact .exited hunsent hphase

theorem Thread.stepped {ι : Type} {decoders : AlacConfig → Option Decoder}
    {track : Option Track} {p : Nat} {t t' : Thread ι} {deed : Deed}
    (h : t.next decoders track p = some (deed, t')) :
    t.exited = false ∧ Stepped decoders track p t deed t' := by
  unfold Thread.next at h
  split at h
  · cases h
  · rename_i hexited
    refine ⟨by simpa using hexited, ?_⟩
    split at h
    · rename_i hunsent
      cases h
      exact .reported hunsent
    · rename_i hunsent
      exact Thread.loop_stepped hunsent h

/-- The division is the only fault of the clock model, so the thread panics at a rate of 0 only. -/
theorem Thread.panicked {ι : Type} {decoders : AlacConfig → Option Decoder}
    {track : Option Track} {clock : ClockModel} {p : Nat} {t t' : Thread ι} {deed : Deed}
    (h : t.panic clock p = some (deed, t')) :
    t.exited = false ∧ Stepped decoders track p t deed t' := by
  unfold Thread.panic at h
  split at h
  · cases h
  · rename_i hgoing
    simp only [not_or, Bool.not_eq_true, not_not] at hgoing
    obtain ⟨hexited, hunsent, hrate⟩ := hgoing
    refine ⟨hexited, ?_⟩
    split at h
    · rename_i firstTs actions hphase
      split at h
      · rename_i fault hfault
        cases h
        exact .panicked hunsent hphase (hrate ▸ ClockModel.sampleRate_of_fault hfault)
      · cases h
    · cases h

/-- The thread's loop takes the steps of the playback thread on its own, but that it also
leaves off draining when nobody can send any more. -/
theorem Stepped.playback {ι : Type} {decoders : AlacConfig → Option Decoder}
    {track : Option Track} {p : Nat} {t t' : Thread ι} {deed : Deed}
    (h : Stepped decoders track p t deed t') :
    t'.playback = t.playback ∨
      (t.playback.phase = .draining ∧ t.playback.queue = [] ∧
        t'.playback = { t.playback with phase := .stopped }) ∨
      ∃ decoder l, Player.Step t.config decoder plain t.playback l t'.playback := by
  have anyone : Decoder := ⟨0, fun _ => none⟩
  cases h with
  | reported _ => exact .inl rfl
  | played _ hphase => exact .inr (.inr ⟨anyone, _, .act hphase⟩)
  | acted _ hphase _ => exact .inr (.inr ⟨anyone, _, .act hphase⟩)
  | received _ hphase hqueue => exact .inr (.inr ⟨anyone, _, .receive hphase hqueue⟩)
  | hungUp _ hphase hqueue hconnected =>
    rcases hphase with hphase | hphase
    · exact .inr (.inr ⟨anyone, _, .hungUp hphase hqueue hconnected⟩)
    · exact .inr (.inl ⟨hphase, hqueue, rfl⟩)
  | preempted _ hphase hstop => exact .inr (.inr ⟨anyone, _, .preempted hphase hstop⟩)
  | handled _ hphase hstop _ hhandle =>
    exact .inr (.inr ⟨_, _, .handled hphase hstop hhandle⟩)
  | stopped _ hphase hstop _ hhandle =>
    exact .inr (.inr ⟨_, _, .stopped hphase hstop hhandle⟩)
  | drained _ hphase hqueue => exact .inr (.inr ⟨anyone, _, .drain hphase hqueue⟩)
  | exited _ _ | panicked _ _ _ => exact .inl rfl

inductive Moved {ι : Type} [DecidableEq ι] (decoders : AlacConfig → Option Decoder)
    (decryptBlock : Rtp.Block → Bytes → Bytes) (w : World ι) : Deed → World ι → Prop where
  | stepped {p : Nat} {t t' : Thread ι} {deed : Deed} : w.players p = some t → t.exited = false →
    Stepped decoders (w.track t.owner) p t deed t' →
      Moved decoders decryptBlock w deed (w.afterStep p t')
  | turned {a : Nat} {t t' : AudioTask} {input : Audio.Input} : w.tasks a = some t →
    t.turn decryptBlock input = some t' →
      Moved decoders decryptBlock w (.turned a input)
        { w with tasks := Function.update w.tasks a (some t') }
  | pushed {a : Nat} {t : AudioTask} {output : Audio.Output} {rest : List Audio.Output} :
    w.tasks a = some t → t.outbox = output :: rest →
      Moved decoders decryptBlock w (.pushed a output)
        (World.deliver
          { w with tasks := Function.update w.tasks a (some { t with outbox := rest }) }
          t.player output)
  | disconnected {p : Nat} :
    Moved decoders decryptBlock w (.disconnected p)
      (w.onPlayer p fun t => { t with playback := { t.playback with connected := false } })

theorem World.moved {ι : Type} [DecidableEq ι] {decoders : AlacConfig → Option Decoder}
    {decryptBlock : Rtp.Block → Bytes → Bytes} {w w' : World ι} {m : Move} {deed : Deed}
    (h : w.move decoders decryptBlock m = some (deed, w')) :
    Moved decoders decryptBlock w deed w' := by
  cases m with
  | player p =>
    obtain ⟨t, ht, h⟩ := Option.bind_eq_some_iff.mp h
    obtain ⟨⟨deed', t'⟩, hnext, heq⟩ := Option.map_eq_some_iff.mp h
    cases heq
    obtain ⟨hexited, hstepped⟩ := Thread.stepped hnext
    exact .stepped ht hexited hstepped
  | panic p clock =>
    obtain ⟨t, ht, h⟩ := Option.bind_eq_some_iff.mp h
    obtain ⟨⟨deed', t'⟩, hpanic, heq⟩ := Option.map_eq_some_iff.mp h
    cases heq
    obtain ⟨hexited, hstepped⟩ := Thread.panicked hpanic
    exact .stepped ht hexited hstepped
  | audio a input =>
    obtain ⟨t, ht, h⟩ := Option.bind_eq_some_iff.mp h
    obtain ⟨t', hturn, heq⟩ := Option.map_eq_some_iff.mp h
    cases heq
    exact .turned ht hturn
  | push a =>
    obtain ⟨t, ht, h⟩ := Option.bind_eq_some_iff.mp h
    cases houtbox : t.outbox with
    | nil =>
      rw [houtbox] at h
      cases h
    | cons output rest =>
      rw [houtbox] at h
      cases h
      exact .pushed ht houtbox
  | disconnect p =>
    simp only [World.move] at h
    split at h
    · cases h
      exact .disconnected
    · cases h

end OpenAirplay
