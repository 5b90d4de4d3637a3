import OpenAirplay.Server

/-!
# What one request can do

The handlers read off as runs: which operations each performs, in order, and what it
leaves of the session. `route_cases` says it once for all methods.
-/

namespace OpenAirplay

open Audio Program

set_option autoImplicit false

abbrev Trace := List (Call Op.Res)

def did (effect : Effect) : Call Op.Res := ⟨.act effect, ()⟩

def asked (query : Query) (answer : query.Answer) : Call Op.Res := ⟨.ask query, answer⟩

@[simp] theorem runs_act {effect : Effect} {trace : Trace} {u : Unit} :
    Runs (act effect) trace u ↔ trace = [did effect] := runs_perform

theorem runs_act_bind {α : Type} {effect : Effect} {f : Unit → Action α} {trace : Trace} {a : α} :
    Runs (act effect >>= f) trace a ↔ ∃ rest, trace = did effect :: rest ∧ Runs (f ()) rest a := by
  rw [act, runs_perform_bind]
  constructor
  · rintro ⟨⟨⟩, rest, rfl, h⟩
    exact ⟨rest, rfl, h⟩
  · rintro ⟨rest, rfl, h⟩
    exact ⟨(), rest, rfl, h⟩

theorem runs_ask_bind {α : Type} {query : Query} {f : query.Answer → Action α} {trace : Trace}
    {a : α} : Runs (ask query >>= f) trace a ↔
      ∃ answer rest, trace = asked query answer :: rest ∧ Runs (f answer) rest a :=
  runs_perform_bind

def Event.isLifecycle : Event → Bool
  | .sessionStarted _ _ _ | .sessionEnded => true
  | _ => false

/-- Reports to the host and the tasks, inside or outside a session. -/
def Op.isReport : Op → Bool
  | .act (.send event) => !event.isLifecycle
  | .act (.setTrack _) | .act (.sendFlush _ _) => true
  | _ => false

def Every (p : Op → Bool) (trace : Trace) : Prop := ∀ call ∈ trace, p call.1

@[simp] theorem every_nil (p : Op → Bool) : Every p [] := by simp [Every]

@[simp] theorem every_append {p : Op → Bool} {trace trace' : Trace} :
    Every p (trace ++ trace') ↔ Every p trace ∧ Every p trace' := by
  simp only [Every, List.forall_mem_append]

@[simp] theorem every_cons {p : Op → Bool} {call : Call Op.Res} {trace : Trace} :
    Every p (call :: trace) ↔ p call.1 ∧ Every p trace := by
  simp only [Every, List.forall_mem_cons]

@[simp] theorem every_map {α : Type} {p : Op → Bool} {f : α → Effect} {xs : List α} :
    Every p (xs.map fun x => did (f x)) ↔ ∀ x ∈ xs, p (.act (f x)) := by
  simp [Every, did]

theorem Every.mono {p q : Op → Bool} {trace : Trace} (h : Every p trace)
    (himp : ∀ o, p o → q o) : Every q trace := fun call hcall => himp _ (h call hcall)

abbrev Reports (trace : Trace) : Prop := Every Op.isReport trace

/-- What text parameters may report, the position only while a session is streaming. -/
def Op.isText (streaming : Bool) : Op → Bool
  | .act (.send (.volume _)) => true
  | .act (.send (.progress _ _)) | .act (.setTrack (some _)) => streaming
  | _ => false

theorem Op.isReport_of_isText (streaming : Bool) (o : Op) (h : o.isText streaming) :
    o.isReport := by
  cases o with
  | ask query => cases h
  | act effect =>
    cases effect with
    | send event => cases event <;> first | rfl | cases h
    | _ => first | rfl | cases h

/-- What the end of a session does to its tasks, its player and its flush channel. -/
def Op.isCleanup : Op → Bool
  | .act (.abort _) | .act (.setStop _) | .act (.sendStop _) | .act (.join _)
  | .act (.closeFlush _) => true
  | _ => false

theorem Every.not_asked {p : Op → Bool} {trace : Trace} (h : Every p trace) {query : Query}
    (hquery : p (.ask query) = false) (answer : query.Answer) : asked query answer ∉ trace := by
  intro hmem
  have hcall := h _ hmem
  rw [asked, hquery] at hcall
  cases hcall

theorem runs_sendEvents {events : List Event} {trace : Trace} {u : Unit} :
    Runs (sendEvents events) trace u ↔ trace = events.map fun event => did (.send event) := by
  induction events generalizing trace with
  | nil => simp [sendEvents]
  | cons event events ih => simp [sendEvents, runs_act_bind, ih]

theorem runs_abortTasks {tasks : List Nat} {trace : Trace} {u : Unit} :
    Runs (abortTasks tasks) trace u ↔ trace = tasks.map fun task => did (.abort task) := by
  induction tasks generalizing trace with
  | nil => simp [abortTasks]
  | cons task tasks ih => simp [abortTasks, runs_act_bind, ih]

def playerDrop : Option Nat → Trace
  | none => []
  | some player => [did (.setStop player), did (.sendStop player), did (.join player)]

theorem runs_dropPlayer {player : Option Nat} {trace : Trace} {u : Unit} :
    Runs (dropPlayer player) trace u ↔ trace = playerDrop player := by
  cases player <;> simp [dropPlayer, playerDrop, runs_act_bind]

theorem cleanup_playerDrop (player : Option Nat) : Every Op.isCleanup (playerDrop player) := by
  cases player <;> simp [playerDrop, did, Op.isCleanup]

def flushClose : Option Nat → Trace
  | none => []
  | some channel => [did (.closeFlush channel)]

theorem runs_closeFlush {channel : Option Nat} {trace : Trace} {u : Unit} :
    Runs (closeFlush channel) trace u ↔ trace = flushClose channel := by
  cases channel <;> simp [closeFlush, flushClose]

theorem cleanup_flushClose (channel : Option Nat) : Every Op.isCleanup (flushClose channel) := by
  cases channel <;> simp [flushClose, did, Op.isCleanup]

theorem cleanup_abort (tasks : List Nat) :
    Every Op.isCleanup (tasks.map fun task => did (.abort task)) := by
  simp [Op.isCleanup]

def slotRelease : Bool → Trace
  | false => []
  | true => [did .releaseSlot]

theorem runs_releaseSlot {guard : Bool} {trace : Trace} {u : Unit} :
    Runs (releaseSlot guard) trace u ↔ trace = slotRelease guard := by
  cases guard <;> simp [releaseSlot, slotRelease]

namespace Session

def ending (s : Session) : Trace :=
  did (.setTrack none) :: if s.streaming then [did (.send .sessionEnded)] else []

theorem runs_endSession {s s' : Session} {trace : Trace} :
    Runs s.endSession trace s' ↔ trace = s.ending ∧ s' = { s with streaming := false } := by
  obtain ⟨streaming, hs⟩ : ∃ b, s.streaming = b := ⟨_, rfl⟩
  rw [endSession, runs_act_bind]
  cases streaming
  · have hsame : ({ s with streaming := false } : Session) = s := by rw [← hs]
    simp [ending, hs, hsame]
  · simp [ending, hs, runs_map]

theorem runs_stopTasks {s s' : Session} {trace : Trace} :
    Runs s.stopTasks trace s' ↔
      trace = (s.tasks.map fun task => did (.abort task)) ∧ s' = { s with tasks := [] } := by
  rw [stopTasks, runs_bind]
  simp [runs_abortTasks]

/-- Tearing down: the tasks, the player and the slot go before the end is reported. -/
theorem runs_teardown {s s' : Session} {trace : Trace} :
    Runs s.teardown trace s' ↔
      trace = (s.tasks.map fun task => did (.abort task)) ++ playerDrop s.player ++
          flushClose s.flushTx ++ slotRelease s.slotGuard ++ s.ending ∧
        s' = { s with tasks := [], player := none, flushTx := none, slotGuard := false,
                      streaming := false } := by
  simp [teardown, runs_bind, runs_stopTasks, runs_dropPlayer, runs_closeFlush, runs_releaseSlot,
    runs_endSession, ending]

/-- Dropping: the end is reported while the slot is still held. -/
theorem runs_drop {s : Session} {trace : Trace} {u : Unit} :
    Runs s.drop trace u ↔
      trace = (s.tasks.map fun task => did (.abort task)) ++ s.ending ++ playerDrop s.player ++
        flushClose s.flushTx ++ slotRelease s.slotGuard := by
  simp [drop, runs_bind, runs_stopTasks, runs_dropPlayer, runs_closeFlush, runs_releaseSlot,
    runs_endSession, ending]

theorem text_setProgress {s : Session} {value : String} {trace : Trace} {u : Unit}
    (h : Runs (s.setProgress value) trace u) : Every (Op.isText s.streaming) trace := by
  unfold setProgress at h
  split at h
  · simp_all
  · split at h
    · rename_i hstreaming
      split at h
      · simp only [runs_act_bind, runs_act] at h
        obtain ⟨rest, rfl, rfl⟩ := h
        simp [did, Op.isText, hstreaming]
      · simp_all
    · simp_all

theorem text_setTextParameter {crates : Crates} {s : Session} {line : String} {trace : Trace}
    {u : Unit} (h : Runs (s.setTextParameter crates line) trace u) :
    Every (Op.isText s.streaming) trace := by
  unfold setTextParameter at h
  split at h
  · split at h
    · simp_all
    · obtain rfl := runs_act.mp h
      simp [did, Op.isText]
  · split at h
    · exact text_setProgress h
    · simp_all

theorem text_setTextLines {crates : Crates} {s : Session} {text : List String} {trace : Trace}
    {u : Unit} (h : Runs (s.setTextLines crates text) trace u) :
    Every (Op.isText s.streaming) trace := by
  induction text generalizing trace with
  | nil => simp_all [setTextLines]
  | cons line text ih =>
    rw [setTextLines, runs_bind] at h
    obtain ⟨before, _, after, rfl, hline, hrest⟩ := h
    exact every_append.mpr ⟨text_setTextParameter hline, ih hrest⟩

/-- The same session, but for what is latched. -/
structure Relatched (s s' : Session) : Prop where
  same : s' = { s with pendingMetadata := s'.pendingMetadata, pendingArtwork := s'.pendingArtwork }
  latched : (∀ event ∈ s.latched, event.isLifecycle = false) →
    ∀ event ∈ s'.latched, event.isLifecycle = false

theorem Relatched.refl (s : Session) : Relatched s s := ⟨rfl, id⟩

theorem runs_sendSessionEvent {s s' : Session} {event : Event} {trace : Trace}
    (hevent : event.isLifecycle = false) (h : Runs (s.sendSessionEvent event) trace s') :
    Reports trace ∧ Relatched s s' := by
  unfold sendSessionEvent at h
  split at h
  · simp only [runs_act_bind, runs_pure] at h
    obtain ⟨rest, rfl, rfl, rfl⟩ := h
    exact ⟨by simp [did, Op.isReport, hevent], .refl _⟩
  · split at h <;> obtain ⟨rfl, rfl⟩ := runs_pure.mp h
    · refine ⟨every_nil _, rfl, ?_⟩
      intro hold e he
      simp only [Session.latched, List.mem_append, Option.mem_toList] at he hold
      rcases he with he | he
      · exact hold e (.inl he)
      · cases he
        rfl
    · refine ⟨every_nil _, rfl, ?_⟩
      intro hold e he
      simp only [Session.latched, List.mem_append, Option.mem_toList] at he hold
      rcases he with he | he
      · cases he
        exact hevent
      · exact hold e (.inr he)

theorem runs_setParameter {crates : Crates} {s s' : Session} {contentType : Option String}
    {body : Bytes} {trace : Trace} (h : Runs (s.setParameter crates contentType body) trace s') :
    Reports trace ∧ Relatched s s' := by
  have htext : Runs (s.setTextParameters crates body >>= fun _ => pure s) trace s' →
      Reports trace ∧ Relatched s s' := by
    intro h
    rw [runs_bind] at h
    obtain ⟨before, _, after, rfl, hlines, hpure⟩ := h
    obtain ⟨rfl, rfl⟩ := runs_pure.mp hpure
    rw [List.append_nil]
    exact ⟨(text_setTextLines hlines).mono (Op.isReport_of_isText _), .refl _⟩
  unfold setParameter at h
  split at h
  · exact htext h
  · split at h
    · unfold setMetadata at h
      split at h
      · obtain ⟨rfl, rfl⟩ := runs_pure.mp h
        exact ⟨every_nil _, .refl _⟩
      · exact runs_sendSessionEvent rfl h
    · split at h
      · exact runs_sendSessionEvent rfl h
      · exact htext h

theorem reports_flush {s : Session} {request : Request} {trace : Trace} {u : Unit}
    (h : Runs (s.flush request) trace u) : Reports trace := by
  simp only [flush] at h
  split at h
  · obtain rfl := runs_act.mp (runs_pure_bind.mp h)
    simp [did, Op.isReport, Event.isLifecycle]
  · rw [runs_act_bind] at h
    obtain ⟨rest, rfl, h⟩ := h
    obtain rfl := runs_act.mp h
    simp [did, Op.isReport, Event.isLifecycle]

theorem runs_startStream {s s' : Session} {params : StreamParams} {ports : Ports}
    {controlPort timingPort : U16} {trace : Trace} {response : Response}
    (h : Runs (s.startStream params ports controlPort timingPort) trace (s', response)) :
    response.status = 200 ∧ ∃ sink player audio control timing,
      trace = did (.send (.sessionStarted params.alac.sampleRate params.alac.channels s.peerIp)) ::
          (s.latched.map fun event => did (.send event)) ++
        [asked (.makeSink params.alac.sampleRate params.alac.channels) sink,
          asked (.spawnPlayer params.alac sink) player] ++ playerDrop s.player ++
        flushClose s.flushTx ++
        [asked (.spawnAudio params s.observer player ⟨s.peerIp, controlPort⟩) audio,
          asked .spawnControl control, asked (.spawnTiming ⟨s.peerIp, timingPort⟩) timing] ∧
      s' = { s with
        tasks := s.tasks ++ [audio, control, timing], streaming := true, pendingMetadata := none,
        pendingArtwork := none, player := some player, flushTx := some audio,
        localPorts := ports } := by
  rw [startStream, runs_act_bind] at h
  obtain ⟨_, rfl, h⟩ := h
  rw [runs_bind] at h
  obtain ⟨_, _, _, rfl, hlatched, h⟩ := h
  rw [runs_ask_bind] at h
  obtain ⟨sink, _, rfl, h⟩ := h
  rw [runs_ask_bind] at h
  obtain ⟨player, _, rfl, h⟩ := h
  rw [runs_bind] at h
  obtain ⟨_, _, _, rfl, hplayer, h⟩ := h
  rw [runs_bind] at h
  obtain ⟨_, _, _, rfl, hflush, h⟩ := h
  rw [runs_ask_bind] at h
  obtain ⟨audio, _, rfl, h⟩ := h
  rw [runs_ask_bind] at h
  obtain ⟨control, _, rfl, h⟩ := h
  rw [runs_ask_bind] at h
  obtain ⟨timing, _, rfl, h⟩ := h
  obtain ⟨rfl, heq⟩ := runs_pure.mp h
  obtain ⟨rfl, rfl⟩ := Prod.mk.inj heq
  rw [runs_sendEvents.mp hlatched, runs_dropPlayer.mp hplayer, runs_closeFlush.mp hflush]
  exact ⟨rfl, sink, player, audio, control, timing, by simp, rfl⟩

/-- A SETUP of a session without a guard takes the slot first. -/
def acquired (s : Session) : Trace := if s.slotGuard then [] else [asked .compareExchange true]

/-- What the stream of a successful SETUP starts with. -/
structure Started (s : Session) (params : StreamParams) (ip : IpAddr) (ports : Ports)
    (trace : Trace) (s' : Session) : Prop where
  opening : ∃ opening, trace = s.acquired ++ asked (.bindThree ip) (some ports) ::
    did (.send (.sessionStarted params.alac.sampleRate params.alac.channels s.peerIp)) ::
      (s.latched.map fun event => did (.send event)) ++ opening ∧
    ∃ sink player audio control timing controlPort timingPort,
      opening = [asked (.makeSink params.alac.sampleRate params.alac.channels) sink,
          asked (.spawnPlayer params.alac sink) player] ++ playerDrop s.player ++
        flushClose s.flushTx ++
        [asked (.spawnAudio params s.observer player ⟨s.peerIp, controlPort⟩) audio,
          asked .spawnControl control, asked (.spawnTiming ⟨s.peerIp, timingPort⟩) timing] ∧
      s' = { s with
        slotGuard := true, tasks := s.tasks ++ [audio, control, timing], streaming := true,
        pendingMetadata := none, pendingArtwork := none, player := some player,
        flushTx := some audio, localPorts := ports }

theorem runs_openStream {s s' : Session} {params : StreamParams} {request : Request}
    {localIp : IpAddr} {trace : Trace} {response : Response} (hguard : s.slotGuard = true)
    (h : Runs (s.openStream params request localIp) trace (s', response)) :
    (s' = s ∧ response.status ∉ [200, 453] ∧
        ((clientPorts request = none ∧ trace = []) ∨
          ((clientPorts request).isSome ∧ trace = [asked (.bindThree (bindIp localIp)) none]))) ∨
      (response.status = 200 ∧ (clientPorts request).isSome ∧
        ∃ ports, Started s params (bindIp localIp) ports trace s') := by
  unfold openStream at h
  split at h
  · rename_i hports
    obtain ⟨rfl, heq⟩ := runs_pure.mp h
    obtain ⟨rfl, rfl⟩ := Prod.mk.inj heq
    exact .inl ⟨rfl, by simp, .inl ⟨hports, rfl⟩⟩
  · rename_i controlPort timingPort hports
    rw [runs_ask_bind] at h
    obtain ⟨bound, rest, rfl, h⟩ := h
    cases bound with
    | none =>
      obtain ⟨rfl, heq⟩ := runs_pure.mp h
      obtain ⟨rfl, rfl⟩ := Prod.mk.inj heq
      exact .inl ⟨rfl, by simp, .inr ⟨by simp [hports], rfl⟩⟩
    | some ports =>
      obtain ⟨hstatus, sink, player, audio, control, timing, rfl, rfl⟩ := runs_startStream h
      refine .inr ⟨hstatus, by simp [hports], ports, ⟨_, ?_, sink, player, audio, control, timing,
        controlPort, timingPort, rfl, ?_⟩⟩
      · simp [acquired, hguard]
      · rw [hguard]

/-- All that method dispatch can do with one request. -/
inductive Handled (ctx : Context) (s : Session) (request : Request) :
    Trace → Session → Nat → Prop where
  | reported {trace : Trace} {s' : Session} {status : Nat} :
    Reports trace → Relatched s s' → status = 200 →
      Handled ctx s request trace s' status
  | announced {params : StreamParams} {status : Nat} :
    status = 200 → Handled ctx s request [] { s with params := some params } status
  | rejected {status : Nat} :
    status ∉ [200, 453] → Handled ctx s request [] s status
  | busy {status : Nat} :
    request.method = "SETUP" → s.params.isSome → s.slotGuard = false → status = 453 →
      Handled ctx s request [asked .compareExchange false] s status
  | failed {trace : Trace} {status : Nat} :
    request.method = "SETUP" → s.params.isSome → status ∉ [200, 453] →
      ((clientPorts request = none ∧ trace = s.acquired) ∨
        ((clientPorts request).isSome ∧
          trace = s.acquired ++ [asked (.bindThree (bindIp ctx.localIp)) none])) →
      Handled ctx s request trace { s with slotGuard := true } status
  | started {trace : Trace} {s' : Session} {status : Nat} {params : StreamParams}
    {ports : Ports} :
    request.method = "SETUP" → s.params = some params → (clientPorts request).isSome →
      status = 200 → Started s params (bindIp ctx.localIp) ports trace s' →
      Handled ctx s request trace s' status
  | closed {trace : Trace} {s' : Session} {status : Nat} :
    request.method = "TEARDOWN" → Runs s.teardown trace s' → status = 200 →
      Handled ctx s request trace s' status

theorem handled_announce (ctx : Context) (s : Session) (request : Request) :
    Handled ctx s request [] (s.handleAnnounce ctx.crates request).1
      (s.handleAnnounce ctx.crates request).2.status := by
  simp only [handleAnnounce]
  split
  · exact .rejected (by simp)
  · split
    · exact .announced rfl
    · split
      · exact .announced rfl
      · exact .rejected (by simp)
    · exact .rejected (by simp)

/-- A SETUP is refused, fails with the slot in its hands, or starts a stream. -/
theorem setup_cases {s s' : Session} {request : Request} {localIp : IpAddr} {trace : Trace}
    {response : Response} (h : Runs (s.handleSetup request localIp) trace (s', response)) :
    (s.params = none ∧ trace = [] ∧ s' = s ∧ response.status = 455) ∨
    (s.params.isSome ∧ s.slotGuard = false ∧ trace = [asked .compareExchange false] ∧ s' = s ∧
      response.status = 453) ∨
    (s.params.isSome ∧ response.status ∉ [200, 453] ∧ s' = { s with slotGuard := true } ∧
      ((clientPorts request = none ∧ trace = s.acquired) ∨
        ((clientPorts request).isSome ∧
          trace = s.acquired ++ [asked (.bindThree (bindIp localIp)) none]))) ∨
    (∃ params ports, s.params = some params ∧ (clientPorts request).isSome ∧
      response.status = 200 ∧ Started s params (bindIp localIp) ports trace s') := by
  unfold handleSetup at h
  split at h
  · rename_i hparams
    obtain ⟨rfl, heq⟩ := runs_pure.mp h
    obtain ⟨rfl, rfl⟩ := Prod.mk.inj heq
    exact .inl ⟨hparams, rfl, rfl, rfl⟩
  · rename_i params hparams
    have hsome : s.params.isSome := by simp [hparams]
    split at h
    · rename_i hguard
      have hsame : ({ s with slotGuard := true } : Session) = s := by rw [← hguard]
      rcases runs_openStream hguard h with ⟨rfl, hstatus, hwhy⟩ | ⟨hstatus, hports, ports, hst⟩
      · refine .inr (.inr (.inl ⟨hsome, hstatus, hsame.symm, ?_⟩))
        simpa [acquired, hguard] using hwhy
      · exact .inr (.inr (.inr ⟨params, ports, hparams, hports, hstatus, hst⟩))
    · rename_i hguard
      have hfree : s.slotGuard = false := by simpa using hguard
      rw [runs_ask_bind] at h
      obtain ⟨won, rest, rfl, h⟩ := h
      cases won with
      | false =>
        obtain ⟨rfl, heq⟩ := runs_pure.mp h
        obtain ⟨rfl, rfl⟩ := Prod.mk.inj heq
        exact .inr (.inl ⟨hsome, hfree, rfl, rfl, rfl⟩)
      | true =>
        rcases runs_openStream rfl h with ⟨rfl, hstatus, hwhy⟩ | ⟨hstatus, hports, ports, hst⟩
        · refine .inr (.inr (.inl ⟨hsome, hstatus, rfl, ?_⟩))
          simpa [acquired, hfree] using hwhy
        · obtain ⟨opening, rfl, hopen⟩ := hst.opening
          refine .inr (.inr (.inr ⟨params, ports, hparams, hports, hstatus, opening, ?_, hopen⟩))
          simp [acquired, hfree, latched]

theorem handled_setup {ctx : Context} {s s' : Session} {request : Request} {trace : Trace}
    {response : Response} (hmethod : request.method = "SETUP")
    (h : Runs (s.handleSetup request ctx.localIp) trace (s', response)) :
    Handled ctx s request trace s' response.status := by
  rcases setup_cases h with ⟨_, rfl, rfl, hstatus⟩ | ⟨hsome, hfree, rfl, rfl, hstatus⟩ |
    ⟨hsome, hstatus, rfl, hwhy⟩ | ⟨params, ports, hparams, hports, hstatus, hst⟩
  · exact .rejected (by simp [hstatus])
  · exact .busy hmethod hsome hfree hstatus
  · exact .failed hmethod hsome hstatus hwhy
  · exact .started hmethod hparams hports hstatus hst

theorem handled_other {ctx : Context} {s s' : Session} {request : Request} {trace : Trace}
    {response : Option Response}
    (h : Runs (s.handleOther ctx.crates request) trace (s', response)) :
    Handled ctx s request trace s' (response.getD (.new 501 "Not Implemented")).status := by
  unfold handleOther at h
  split at h
  · rename_i hmethod
    rw [runs_bind] at h
    obtain ⟨_, _, _, rfl, hdown, h⟩ := h
    obtain ⟨rfl, heq⟩ := runs_pure.mp h
    obtain ⟨rfl, rfl⟩ := Prod.mk.inj heq
    exact .closed hmethod (by simpa using hdown) rfl
  · rw [runs_bind] at h
    obtain ⟨_, _, _, rfl, hflush, h⟩ := h
    obtain ⟨rfl, heq⟩ := runs_pure.mp h
    obtain ⟨rfl, rfl⟩ := Prod.mk.inj heq
    exact .reported (by simpa using reports_flush hflush) (.refl _) rfl
  · rw [runs_bind] at h
    obtain ⟨_, _, _, rfl, hset, h⟩ := h
    obtain ⟨rfl, heq⟩ := runs_pure.mp h
    obtain ⟨rfl, rfl⟩ := Prod.mk.inj heq
    obtain ⟨hreports, hsame⟩ := runs_setParameter hset
    exact .reported (by simpa using hreports) hsame rfl
  · obtain ⟨rfl, heq⟩ := runs_pure.mp h
    obtain ⟨rfl, rfl⟩ := Prod.mk.inj heq
    exact .reported (every_nil _) (.refl _) rfl
  · obtain ⟨rfl, heq⟩ := runs_pure.mp h
    obtain ⟨rfl, rfl⟩ := Prod.mk.inj heq
    exact .rejected (by simp)

theorem route_cases {ctx : Context} {s s' : Session} {request : Request} {trace : Trace}
    {response : Response} (h : Runs (ctx.route s request) trace (s', response)) :
    Handled ctx s request trace s' response.status := by
  unfold Context.route at h
  split at h
  · obtain ⟨rfl, heq⟩ := runs_pure.mp h
    obtain ⟨rfl, rfl⟩ := Prod.mk.inj heq
    exact .reported (every_nil _) (.refl _) rfl
  · obtain ⟨rfl, heq⟩ := runs_pure.mp h
    rw [show s' = (s.handleAnnounce ctx.crates request).1 from congrArg Prod.fst heq,
      show response = (s.handleAnnounce ctx.crates request).2 from congrArg Prod.snd heq]
    exact handled_announce ctx s request
  · rename_i hmethod
    exact handled_setup hmethod h
  · obtain ⟨rfl, heq⟩ := runs_pure.mp h
    obtain ⟨rfl, rfl⟩ := Prod.mk.inj heq
    exact .reported (every_nil _) (.refl _) rfl
  · rw [runs_bind] at h
    obtain ⟨_, ⟨s'', other⟩, _, rfl, hother, h⟩ := h
    obtain ⟨rfl, heq⟩ := runs_pure.mp h
    obtain ⟨rfl, rfl⟩ := Prod.mk.inj heq
    simpa using handled_other hother

/-- The same by method, with the run of the handler where it does anything. -/
inductive ByMethod (ctx : Context) (s : Session) (request : Request) :
    Trace → Session → Response → Prop where
  | idle {response : Response} :
    request.method ∉ ["SETUP", "TEARDOWN", "FLUSH", "SET_PARAMETER"] →
      ByMethod ctx s request [] s response
  | announced {params : StreamParams} {response : Response} : request.method = "ANNOUNCE" →
    ByMethod ctx s request [] { s with params := some params } response
  | setup {trace : Trace} {s' : Session} {response : Response} : request.method = "SETUP" →
    Runs (s.handleSetup request ctx.localIp) trace (s', response) →
      ByMethod ctx s request trace s' response
  | teardown {trace : Trace} {s' : Session} {response : Response} : request.method = "TEARDOWN" →
    Runs s.teardown trace s' → ByMethod ctx s request trace s' response
  | flush {trace : Trace} {u : Unit} {response : Response} : request.method = "FLUSH" →
    Runs (s.flush request) trace u → ByMethod ctx s request trace s response
  | parameter {trace : Trace} {s' : Session} {response : Response} :
    request.method = "SET_PARAMETER" →
      Runs (s.setParameter ctx.crates (request.headers.get "Content-Type") request.body) trace s' →
        ByMethod ctx s request trace s' response

theorem byMethod_announce {ctx : Context} {s : Session} {request : Request} {response : Response}
    (hmethod : request.method = "ANNOUNCE") :
    ByMethod ctx s request [] (s.handleAnnounce ctx.crates request).1 response := by
  have hidle : request.method ∉ ["SETUP", "TEARDOWN", "FLUSH", "SET_PARAMETER"] := by
    simp [hmethod]
  simp only [handleAnnounce]
  split
  · exact .idle hidle
  · split
    · exact .announced hmethod
    · split
      · exact .announced hmethod
      · exact .idle hidle
    · exact .idle hidle

theorem byMethod_other {ctx : Context} {s s' : Session} {request : Request} {trace : Trace}
    {other : Option Response} {response : Response} (hmethod : request.method ≠ "SETUP")
    (h : Runs (s.handleOther ctx.crates request) trace (s', other)) :
    ByMethod ctx s request trace s' response := by
  unfold handleOther at h
  split at h
  · rename_i hdown
    rw [runs_bind] at h
    obtain ⟨_, _, _, rfl, hrun, h⟩ := h
    obtain ⟨rfl, heq⟩ := runs_pure.mp h
    obtain ⟨rfl, rfl⟩ := Prod.mk.inj heq
    exact .teardown hdown (by simpa using hrun)
  · rename_i hflush
    rw [runs_bind] at h
    obtain ⟨_, _, _, rfl, hrun, h⟩ := h
    obtain ⟨rfl, heq⟩ := runs_pure.mp h
    obtain ⟨rfl, rfl⟩ := Prod.mk.inj heq
    exact .flush hflush (by simpa using hrun)
  · rename_i hset
    rw [runs_bind] at h
    obtain ⟨_, _, _, rfl, hrun, h⟩ := h
    obtain ⟨rfl, heq⟩ := runs_pure.mp h
    obtain ⟨rfl, rfl⟩ := Prod.mk.inj heq
    exact .parameter hset (by simpa using hrun)
  · rename_i hget
    obtain ⟨rfl, heq⟩ := runs_pure.mp h
    obtain ⟨rfl, rfl⟩ := Prod.mk.inj heq
    exact .idle (by simp [hget])
  · rename_i hdown hflush hset _
    obtain ⟨rfl, heq⟩ := runs_pure.mp h
    obtain ⟨rfl, rfl⟩ := Prod.mk.inj heq
    exact .idle (by simpa using ⟨hmethod, hdown, hflush, hset⟩)

theorem byMethod {ctx : Context} {s s' : Session} {request : Request} {trace : Trace}
    {response : Response} (h : Runs (ctx.route s request) trace (s', response)) :
    ByMethod ctx s request trace s' response := by
  unfold Context.route at h
  split at h
  · rename_i hmethod
    obtain ⟨rfl, heq⟩ := runs_pure.mp h
    obtain ⟨rfl, rfl⟩ := Prod.mk.inj heq
    exact .idle (by simp [hmethod])
  · rename_i hmethod
    obtain ⟨rfl, heq⟩ := runs_pure.mp h
    rw [show s' = (s.handleAnnounce ctx.crates request).1 from congrArg Prod.fst heq]
    exact byMethod_announce hmethod
  · rename_i hmethod
    exact .setup hmethod h
  · rename_i hmethod
    obtain ⟨rfl, heq⟩ := runs_pure.mp h
    obtain ⟨rfl, rfl⟩ := Prod.mk.inj heq
    exact .idle (by simp [hmethod])
  · rename_i hsetup _
    rw [runs_bind] at h
    obtain ⟨_, ⟨s'', other⟩, _, rfl, hother, h⟩ := h
    obtain ⟨rfl, heq⟩ := runs_pure.mp h
    obtain ⟨rfl, rfl⟩ := Prod.mk.inj heq
    rw [List.append_nil]
    exact byMethod_other hsetup hother

/-- The request passes the password check of this session. -/
def admits (ctx : Context) (s : Session) (request : Request) : Bool :=
  s.authorized || match ctx.password with
    | none => true
    | some password => answers ctx.crates password (s.authNonce.getD "") request

/-- The 401 of a request that does not, with the nonce made for it if it is the first. -/
structure Challenged (ctx : Context) (s : Session) (trace : Trace) (s' : Session) (nonce : String) :
    Prop where
  nonce_of_session : s' = { s with authNonce := some nonce }
  issued : (s.authNonce = some nonce ∧ trace = []) ∨
    (s.authNonce = none ∧ ∃ bytes, nonce = ctx.crates.base64Encode bytes.toList ∧
      trace = [asked .random bytes])

theorem runs_authChallenge {ctx : Context} {s s' : Session} {trace : Trace}
    {denied : Option Response} (h : Runs (s.authChallenge ctx.crates) trace (s', denied)) :
    ∃ nonce, denied = some (challenge nonce) ∧ Challenged ctx s trace s' nonce := by
  unfold authChallenge at h
  split at h
  · rename_i nonce hnonce
    obtain ⟨rfl, heq⟩ := runs_pure.mp h
    obtain ⟨rfl, rfl⟩ := Prod.mk.inj heq
    exact ⟨nonce, rfl, by rw [← hnonce], .inl ⟨hnonce, rfl⟩⟩
  · rename_i hnonce
    rw [runs_ask_bind] at h
    obtain ⟨bytes, rest, rfl, h⟩ := h
    obtain ⟨rfl, heq⟩ := runs_pure.mp h
    obtain ⟨rfl, rfl⟩ := Prod.mk.inj heq
    exact ⟨_, rfl, rfl, .inr ⟨hnonce, bytes, rfl, rfl⟩⟩

theorem authenticate_of_admits {ctx : Context} {s : Session} {request : Request}
    (h : s.admits ctx request) :
    s.authenticate ctx.crates ctx.password request =
      pure ({ s with authorized := true }, none) := by
  unfold admits at h
  unfold authenticate
  split
  · rename_i hauth
    rw [← hauth]
  · rename_i hauth
    cases hpassword : ctx.password with
    | none => rfl
    | some password =>
      have hanswers : answers ctx.crates password (s.authNonce.getD "") request = true := by
        simpa [hauth, hpassword] using h
      simp [hanswers]

theorem authenticate_of_not_admits {ctx : Context} {s : Session} {request : Request}
    (h : ¬s.admits ctx request) :
    s.authenticate ctx.crates ctx.password request = s.authChallenge ctx.crates := by
  simp only [admits, Bool.or_eq_true, not_or, Bool.not_eq_true] at h
  obtain ⟨hauth, hpass⟩ := h
  cases hpassword : ctx.password with
  | none => simp [hpassword] at hpass
  | some password =>
    rw [hpassword] at hpass
    simp [authenticate, hauth, hpass]

theorem dispatch_of_admits {ctx : Context} {s : Session} {request : Request}
    (h : s.admits ctx request) :
    ctx.dispatch s request = (do
      let (s, response) ← ctx.route { s with authorized := true } request
      pure (s, ctx.finish request response)) := by
  rw [Context.dispatch, authenticate_of_admits h]
  rfl

theorem runs_dispatch_of_admits {ctx : Context} {s s' : Session} {request : Request} {trace : Trace}
    {response : Response} (h : s.admits ctx request)
    (hrun : Runs (ctx.dispatch s request) trace (s', response)) :
    ∃ routed, response = ctx.finish request routed ∧
      Runs (ctx.route { s with authorized := true } request) trace (s', routed) := by
  rw [dispatch_of_admits h, runs_bind] at hrun
  obtain ⟨_, ⟨s'', routed⟩, _, rfl, hroute, hpure⟩ := hrun
  obtain ⟨rfl, heq⟩ := runs_pure.mp hpure
  obtain ⟨rfl, rfl⟩ := Prod.mk.inj heq
  exact ⟨routed, rfl, by simpa using hroute⟩

theorem runs_dispatch_of_not_admits {ctx : Context} {s s' : Session} {request : Request}
    {trace : Trace} {response : Response} (h : ¬s.admits ctx request)
    (hrun : Runs (ctx.dispatch s request) trace (s', response)) :
    ∃ nonce, response = ctx.finish request (challenge nonce) ∧
      Challenged ctx s trace s' nonce := by
  rw [Context.dispatch, authenticate_of_not_admits h, runs_bind] at hrun
  obtain ⟨_, ⟨s'', denied⟩, _, rfl, hauth, hrest⟩ := hrun
  obtain ⟨nonce, rfl, hch⟩ := runs_authChallenge hauth
  rw [runs_pure_bind] at hrest
  obtain ⟨rfl, heq⟩ := runs_pure.mp hrest
  obtain ⟨rfl, rfl⟩ := Prod.mk.inj heq
  exact ⟨nonce, rfl, by simpa using hch⟩

/-- What one request does, past the password check or at it. -/
theorem dispatch_cases {ctx : Context} {s s' : Session} {request : Request} {trace : Trace}
    {response : Response} (h : Runs (ctx.dispatch s request) trace (s', response)) :
    (s.admits ctx request ∧
        Handled ctx { s with authorized := true } request trace s' response.status) ∨
      (¬s.admits ctx request ∧ response.status = 401 ∧
        ∃ nonce, Challenged ctx s trace s' nonce) := by
  by_cases hadmits : s.admits ctx request
  · obtain ⟨routed, rfl, hroute⟩ := runs_dispatch_of_admits hadmits h
    exact .inl ⟨hadmits, by simpa using route_cases hroute⟩
  · obtain ⟨nonce, rfl, hch⟩ := runs_dispatch_of_not_admits hadmits h
    exact .inr ⟨hadmits, by simp [challenge], nonce, hch⟩

end Session

namespace Context

variable {ctx : Context} {s s' : Session} {requests : List Request} {trace : Trace}

theorem runs_serve_cons {request : Request} {responses : List Response} :
    Runs (ctx.serve s (request :: requests)) trace (s', responses) ↔
      ∃ part s₁ response rest responses', trace = part ++ rest ∧
        Runs (ctx.dispatch s request) part (s₁, response) ∧
          Runs (ctx.serve s₁ requests) rest (s', responses') ∧
            responses = response :: responses' := by
  rw [serve, runs_bind]
  constructor
  · rintro ⟨part, ⟨s₁, response⟩, rest, rfl, hdispatch, h⟩
    obtain ⟨rest', ⟨s₂, responses'⟩, after, rfl, hserve, hpure⟩ := runs_bind.mp h
    obtain ⟨rfl, heq⟩ := runs_pure.mp hpure
    obtain ⟨rfl, rfl⟩ := Prod.mk.inj heq
    exact ⟨part, s₁, response, rest', responses', by simp, hdispatch, hserve, rfl⟩
  · rintro ⟨part, s₁, response, rest, responses', rfl, hdispatch, hserve, rfl⟩
    refine ⟨part, (s₁, response), rest, rfl, hdispatch, ?_⟩
    exact runs_bind.mpr ⟨rest, (s', responses'), [], by simp, hserve, runs_pure.mpr ⟨rfl, rfl⟩⟩

/-- In this run of the connection, `request` is dispatched in state `s`, performing `part`. -/
def Dispatched (ctx : Context) (start : Session) (requests : List Request) (trace : Trace)
    (s : Session) (request : Request) (part : Trace) : Prop :=
  ∃ pre post before after responses result, requests = pre ++ request :: post ∧
    trace = before ++ part ++ after ∧ Runs (ctx.serve start pre) before (s, responses) ∧
      Runs (ctx.dispatch s request) part result

theorem dispatched_head {request : Request} {part : Trace} {result : Session × Response}
    (h : Runs (ctx.dispatch s request) part result) (requests : List Request) (rest : Trace) :
    ctx.Dispatched s (request :: requests) (part ++ rest) s request part :=
  ⟨[], requests, [], rest, [], result, rfl, by simp, runs_pure.mpr ⟨rfl, rfl⟩, h⟩

theorem Dispatched.tail {s₁ t : Session} {request request' : Request} {part part' : Trace}
    {response : Response} (hd : ctx.Dispatched s₁ requests trace t request' part')
    (h : Runs (ctx.dispatch s request) part (s₁, response)) :
    ctx.Dispatched s (request :: requests) (part ++ trace) t request' part' := by
  obtain ⟨pre, post, before, after, responses, result, rfl, rfl, hpre, hpart⟩ := hd
  refine ⟨request :: pre, post, part ++ before, after, response :: responses, result, rfl,
    by simp, ?_, hpart⟩
  exact runs_serve_cons.mpr ⟨part, s₁, response, before, responses, rfl, h, hpre, rfl⟩

theorem Dispatched.extend {t : Session} {request : Request} {part : Trace}
    (hd : ctx.Dispatched s requests trace t request part) (more : Trace) :
    ctx.Dispatched s requests (trace ++ more) t request part := by
  obtain ⟨pre, post, before, after, responses, result, rfl, rfl, hpre, hpart⟩ := hd
  exact ⟨pre, post, before, after ++ more, responses, result, rfl, by simp, hpre, hpart⟩

end Context

/-! ## A client to run -/

/-- Surroundings in which the slot is free and every bind succeeds. -/
def obliging : (o : Op) → o.Res
  | .ask .compareExchange => true
  | .ask .random => .replicate 8 0
  | .ask (.bindThree _) => some ⟨6000, 6001, 6002⟩
  | .ask (.makeSink _ _) | .ask (.spawnPlayer _ _) | .ask (.spawnAudio _ _ _ _) | .ask .spawnControl
  | .ask (.spawnTiming _) => (0 : Nat)
  | .act _ => ()

/-- A receiver without a password. -/
def openContext : Context where
  crates :=
    { md5 := fun _ => .replicate 16 0
      base64Encode := fun _ => ""
      base64EncodeNoPad := fun _ => ""
      base64DecodeNoPad := fun _ => none
      rsaSign := id
      rsaDecrypt := fun _ => none
      parseF32 := fun _ => none }
  password := none
  mac := .replicate 6 0
  localIp := .v4 #v[192, 168, 1, 10]

def client : Session := .new false (.v4 #v[192, 168, 1, 2])

def announceRequest : Request :=
  ⟨"ANNOUNCE", "rtsp://192.168.1.10/1", [],
    Text.utf8 "a=fmtp:96 352 0 16 40 10 14 2 255 0 0 44100\n"⟩

def setupRequest : Request :=
  ⟨"SETUP", "rtsp://192.168.1.10/1", [("Transport", "control_port=6001;timing_port=6002")], []⟩

def teardownRequest : Request := ⟨"TEARDOWN", "rtsp://192.168.1.10/1", [], []⟩

end OpenAirplay
