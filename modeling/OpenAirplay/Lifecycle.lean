import OpenAirplay.Handling

/-!
# Session events of one connection

`SessionStarted` and `SessionEnded` in the order one connection sends them, over any
sequence of requests and whatever its surroundings answer.
-/

namespace OpenAirplay

open Program

set_option autoImplicit false

def sent? (call : Call Op.Res) : Option Event :=
  match call.1 with
  | .act (.send event) => some event
  | _ => none

def sentEvents (trace : Trace) : List Event := trace.filterMap sent?

/-- Whether a session is open after these events; nothing if they do not alternate. -/
def sessionOpen : Bool → List Event → Option Bool
  | isOpen, [] => some isOpen
  | isOpen, .sessionStarted _ _ _ :: events => if isOpen then none else sessionOpen true events
  | isOpen, .sessionEnded :: events => if isOpen then sessionOpen false events else none
  | isOpen, _ :: events => sessionOpen isOpen events

@[simp] theorem sentEvents_nil : sentEvents [] = [] := rfl

@[simp] theorem sentEvents_append (trace trace' : Trace) :
    sentEvents (trace ++ trace') = sentEvents trace ++ sentEvents trace' := by
  simp [sentEvents, List.filterMap_append]

@[simp] theorem sentEvents_send (event : Event) (trace : Trace) :
    sentEvents (did (.send event) :: trace) = event :: sentEvents trace := rfl

@[simp] theorem sentEvents_asked (query : Query) (answer : query.Answer) (trace : Trace) :
    sentEvents (asked query answer :: trace) = sentEvents trace := rfl

theorem sentEvents_map_send (events : List Event) :
    sentEvents (events.map fun event => did (.send event)) = events := by
  induction events with
  | nil => rfl
  | cons event events ih => simp [ih]

theorem sessionOpen_append (isOpen : Bool) (events more : List Event) :
    sessionOpen isOpen (events ++ more) =
      (sessionOpen isOpen events).bind fun o => sessionOpen o more := by
  induction events generalizing isOpen with
  | nil => rfl
  | cons event events ih =>
    cases event <;> cases isOpen <;> simp [sessionOpen, ih]

theorem sessionOpen_other (isOpen : Bool) {events : List Event}
    (h : ∀ event ∈ events, event.isLifecycle = false) :
    sessionOpen isOpen events = some isOpen := by
  induction events with
  | nil => rfl
  | cons event events ih =>
    have hrest := ih fun e he => h e (List.mem_cons_of_mem event he)
    have hevent := h event List.mem_cons_self
    cases event <;> simp_all [sessionOpen, Event.isLifecycle]

theorem Reports.other {trace : Trace} (h : Reports trace) :
    ∀ event ∈ sentEvents trace, event.isLifecycle = false := by
  intro event hevent
  obtain ⟨⟨o, r⟩, hmem, hsent⟩ := List.mem_filterMap.mp hevent
  have hreport := h _ hmem
  cases o with
  | ask query => cases hsent
  | act effect =>
    cases effect with
    | send e =>
      cases hsent
      simpa [Op.isReport] using hreport
    | _ => cases hsent

theorem sentEvents_of_cleanup {trace : Trace} (h : Every Op.isCleanup trace) :
    sentEvents trace = [] := by
  apply List.filterMap_eq_nil_iff.mpr
  rintro ⟨o, r⟩ hmem
  have hcall := h _ hmem
  cases o with
  | ask query => cases hcall
  | act effect => cases effect <;> first | rfl | cases hcall

namespace Session

/-- What the handlers leave latched is never a session event. -/
def LatchesOther (s : Session) : Prop := ∀ event ∈ s.latched, event.isLifecycle = false

/-- A SETUP with both ports whose sockets are bound while a session is running. -/
def Reopens (s : Session) (request : Request) (trace : Trace) : Prop :=
  s.streaming = true ∧ request.method = "SETUP" ∧ (clientPorts request).isSome ∧
    ∃ ip ports, asked (.bindThree ip) (some ports) ∈ trace

theorem sentEvents_slotRelease (guard : Bool) : sentEvents (slotRelease guard) = [] := by
  cases guard <;> rfl

theorem sentEvents_acquired (s : Session) : sentEvents s.acquired = [] := by
  unfold acquired
  split <;> rfl

theorem sentEvents_ending (s : Session) :
    sentEvents s.ending = if s.streaming then [.sessionEnded] else [] := by
  unfold ending
  split <;> rfl

theorem sessionOpen_ending (s : Session) :
    sessionOpen s.streaming (sentEvents s.ending) = some false := by
  rw [sentEvents_ending]
  cases s.streaming <;> rfl

theorem sentEvents_teardown {s s' : Session} {trace : Trace} (h : Runs s.teardown trace s') :
    sentEvents trace = sentEvents s.ending := by
  obtain ⟨rfl, rfl⟩ := runs_teardown.mp h
  have haborts := sentEvents_of_cleanup (cleanup_abort s.tasks)
  simp [haborts, sentEvents_of_cleanup, cleanup_playerDrop, cleanup_flushClose,
    sentEvents_slotRelease]

theorem sentEvents_drop {s : Session} {trace : Trace} {u : Unit} (h : Runs s.drop trace u) :
    sentEvents trace = sentEvents s.ending := by
  rw [runs_drop.mp h]
  have haborts := sentEvents_of_cleanup (cleanup_abort s.tasks)
  simp [haborts, sentEvents_of_cleanup, cleanup_playerDrop, cleanup_flushClose,
    sentEvents_slotRelease]

theorem sentEvents_flush {s : Session} {request : Request} {trace : Trace} {u : Unit}
    (h : Runs (s.flush request) trace u) : sentEvents trace = [.flushed] := by
  simp only [flush] at h
  split at h
  · obtain rfl := runs_act.mp (runs_pure_bind.mp h)
    rfl
  · rw [runs_act_bind] at h
    obtain ⟨rest, rfl, h⟩ := h
    obtain rfl := runs_act.mp h
    rfl

theorem Started.sentEvents_eq {s s' : Session} {params : Audio.StreamParams} {ip : IpAddr}
    {ports : Ports} {trace : Trace} (h : Started s params ip ports trace s') :
    sentEvents trace =
      .sessionStarted params.alac.sampleRate params.alac.channels s.peerIp :: s.latched := by
  obtain ⟨opening, rfl, sink, player, audio, control, timing, controlPort, timingPort, rfl, rfl⟩ :=
    h.opening
  simp [sentEvents_acquired, sentEvents_map_send, sentEvents_of_cleanup, cleanup_playerDrop,
    cleanup_flushClose]

theorem not_asked_teardown {s s' : Session} {trace : Trace} (h : Runs s.teardown trace s')
    (query : Query) (answer : query.Answer) : asked query answer ∉ trace := by
  obtain ⟨rfl, -⟩ := runs_teardown.mp h
  simp only [List.mem_append, not_or]
  refine ⟨⟨⟨⟨?_, ?_⟩, ?_⟩, ?_⟩, ?_⟩
  · exact (cleanup_abort s.tasks).not_asked rfl answer
  · exact (cleanup_playerDrop s.player).not_asked rfl answer
  · exact (cleanup_flushClose s.flushTx).not_asked rfl answer
  · cases s.slotGuard <;> simp [slotRelease, did, asked]
  · unfold ending
    split <;> simp [did, asked]

theorem bound_not_mem_acquired (s : Session) (ip : IpAddr) (bound : Option Ports) :
    asked (.bindThree ip) bound ∉ s.acquired := by
  unfold acquired
  split <;> simp [asked]

/-- What a request does to the running session, and when it starts it a second time. -/
theorem sessionOpen_handled {ctx : Context} {s s' : Session} {request : Request} {trace : Trace}
    {status : Nat} (hlatched : s.LatchesOther) (h : Handled ctx s request trace s' status) :
    s'.LatchesOther ∧
      ((s.Reopens request trace ∧ sessionOpen s.streaming (sentEvents trace) = none) ∨
        (¬s.Reopens request trace ∧
          sessionOpen s.streaming (sentEvents trace) = some s'.streaming)) := by
  cases h with
  | reported hreports hsame _ =>
    refine ⟨hsame.latched hlatched, .inr ⟨?_, ?_⟩⟩
    · rintro ⟨_, _, _, ip, ports, hmem⟩
      exact hreports.not_asked rfl _ hmem
    · rw [sessionOpen_other _ hreports.other, hsame.same]
  | announced _ => exact ⟨hlatched, .inr ⟨by simp [Reopens], rfl⟩⟩
  | rejected _ => exact ⟨hlatched, .inr ⟨by simp [Reopens], rfl⟩⟩
  | busy _ _ _ _ => exact ⟨hlatched, .inr ⟨by simp [Reopens, asked], rfl⟩⟩
  | failed _ _ _ hwhy =>
    refine ⟨hlatched, .inr ⟨?_, ?_⟩⟩
    · rintro ⟨_, _, hports, ip, ports, hmem⟩
      rcases hwhy with ⟨_, rfl⟩ | ⟨_, rfl⟩
      · exact s.bound_not_mem_acquired ip _ hmem
      · rcases List.mem_append.mp hmem with hmem | hmem
        · exact s.bound_not_mem_acquired ip _ hmem
        · simp [asked] at hmem
    · rcases hwhy with ⟨_, rfl⟩ | ⟨_, rfl⟩ <;> simp [sentEvents_acquired, sessionOpen]
  | @started _ _ _ params ports hmethod _ hports _ hst =>
    have hevents := hst.sentEvents_eq
    obtain ⟨opening, htrace, sink, player, audio, control, timing, _, _, _, rfl⟩ := hst.opening
    refine ⟨by simp [LatchesOther, latched], ?_⟩
    rw [hevents]
    cases hs : s.streaming with
    | true =>
      refine .inl ⟨⟨hs, hmethod, hports, bindIp ctx.localIp, ports, ?_⟩, rfl⟩
      rw [htrace]
      simp
    | false =>
      refine .inr ⟨by simp [Reopens, hs], ?_⟩
      simp only [sessionOpen, Bool.false_eq_true, if_false]
      exact sessionOpen_other true hlatched
  | closed _ hdown _ =>
    have hevents := sentEvents_teardown hdown
    have hasked := not_asked_teardown hdown
    obtain ⟨_, rfl⟩ := runs_teardown.mp hdown
    refine ⟨hlatched, .inr ⟨?_, ?_⟩⟩
    · rintro ⟨_, _, _, ip, ports, hmem⟩
      exact hasked _ _ hmem
    · rw [hevents, sessionOpen_ending]

theorem sessionOpen_dispatch {ctx : Context} {s s' : Session} {request : Request} {trace : Trace}
    {response : Response} (hlatched : s.LatchesOther)
    (h : Runs (ctx.dispatch s request) trace (s', response)) :
    s'.LatchesOther ∧
      ((s.Reopens request trace ∧ sessionOpen s.streaming (sentEvents trace) = none) ∨
        (¬s.Reopens request trace ∧
          sessionOpen s.streaming (sentEvents trace) = some s'.streaming)) := by
  rcases dispatch_cases h with ⟨_, hhandled⟩ | ⟨_, _, nonce, hch⟩
  · exact sessionOpen_handled (s := { s with authorized := true }) hlatched hhandled
  · obtain rfl := hch.nonce_of_session
    refine ⟨hlatched, .inr ?_⟩
    rcases hch.issued with ⟨_, rfl⟩ | ⟨_, bytes, _, rfl⟩
    · exact ⟨by simp [Reopens], rfl⟩
    · exact ⟨by simp [Reopens, asked], rfl⟩

end Session

namespace Context

theorem sessionOpen_serve {ctx : Context} {s s' : Session} {requests : List Request}
    {trace : Trace} {responses : List Response} (hlatched : s.LatchesOther)
    (h : Runs (ctx.serve s requests) trace (s', responses)) :
    s'.LatchesOther ∧
      (sessionOpen s.streaming (sentEvents trace) = some s'.streaming ∨
        sessionOpen s.streaming (sentEvents trace) = none ∧ ∃ t request part,
          ctx.Dispatched s requests trace t request part ∧ t.Reopens request part) := by
  induction requests generalizing s trace responses with
  | nil =>
    obtain ⟨rfl, heq⟩ := runs_pure.mp h
    obtain ⟨rfl, rfl⟩ := Prod.mk.inj heq
    exact ⟨hlatched, .inl rfl⟩
  | cons request requests ih =>
    obtain ⟨part, s₁, response, rest, responses', rfl, hdispatch, hserve, rfl⟩ :=
      runs_serve_cons.mp h
    obtain ⟨hlatched₁, hstep⟩ := Session.sessionOpen_dispatch hlatched hdispatch
    obtain ⟨hlatched', hrest⟩ := ih hlatched₁ hserve
    refine ⟨hlatched', ?_⟩
    rw [sentEvents_append, sessionOpen_append]
    rcases hstep with ⟨hreopens, hnone⟩ | ⟨_, hsome⟩
    · refine .inr ⟨by rw [hnone]; rfl, s, request, part, ?_, hreopens⟩
      exact dispatched_head hdispatch requests rest
    · rw [hsome, Option.bind_some]
      rcases hrest with hopen | ⟨hnone, t, request', part', hd, hreopens⟩
      · exact .inl hopen
      · exact .inr ⟨hnone, t, request', part', hd.tail hdispatch, hreopens⟩

/-- Whatever one connection is asked, its session events alternate and are closed when it is
dropped, exactly when no SETUP succeeds while its session is running. -/
theorem lifecycle_alternates_iff (ctx : Context) (observer : Bool) (peerIp : IpAddr)
    (requests : List Request) (trace : Trace) (responses : List Response)
    (h : Runs (ctx.handleConnection (.new observer peerIp) requests) trace responses) :
    sessionOpen false (sentEvents trace) = some false ↔
      ∀ s request part, ctx.Dispatched (.new observer peerIp) requests trace s request part →
        ¬s.Reopens request part := by
  have hfresh : (Session.new observer peerIp).LatchesOther := by
    simp [Session.LatchesOther, Session.latched, Session.new]
  obtain ⟨before, ⟨s', rs⟩, after, rfl, hserve, hdrop⟩ := runs_bind.mp h
  obtain ⟨ended, _, _, rfl, hended, hpure⟩ := runs_bind.mp hdrop
  obtain ⟨rfl, rfl⟩ := runs_pure.mp hpure
  obtain ⟨_, hopen⟩ := sessionOpen_serve hfresh hserve
  have hclose := Session.sentEvents_drop hended
  rw [List.append_nil]
  constructor
  · intro hbalanced s request part hd hreopens
    obtain ⟨pre, post, done, rest, rs', result, _, htrace, hpre, hpart⟩ := hd
    obtain ⟨hlatched, hmid⟩ := sessionOpen_serve hfresh hpre
    obtain ⟨_, hbad⟩ := Session.sessionOpen_dispatch hlatched hpart
    rw [htrace, sentEvents_append, sentEvents_append, List.append_assoc, sessionOpen_append]
      at hbalanced
    change sessionOpen false (sentEvents done) = _ ∨ sessionOpen false (sentEvents done) = none ∧ _
      at hmid
    rcases hmid with hmid | ⟨hmid, -⟩
    · rcases hbad with ⟨_, hbad⟩ | ⟨hno, _⟩
      · rw [hmid, Option.bind_some, sessionOpen_append, hbad] at hbalanced
        cases hbalanced
      · exact hno hreopens
    · rw [hmid] at hbalanced
      cases hbalanced
  · intro hnever
    rw [sentEvents_append, sessionOpen_append, hclose]
    change sessionOpen false (sentEvents before) = _ ∨
      sessionOpen false (sentEvents before) = none ∧ _ at hopen
    rcases hopen with hopen | ⟨_, s, request, part, hd, hreopens⟩
    · rw [hopen, Option.bind_some]
      exact s'.sessionOpen_ending
    · exact absurd hreopens (hnever s request part (hd.extend ended))

theorem lifecycle_alternates_once :
    sessionOpen false (sentEvents ((openContext.handleConnection (.new false client.peerIp)
        [announceRequest, setupRequest, teardownRequest]).execute obliging).1) = some false ↔
      ∀ s request part, openContext.Dispatched (.new false client.peerIp)
        [announceRequest, setupRequest, teardownRequest]
        ((openContext.handleConnection (.new false client.peerIp)
          [announceRequest, setupRequest, teardownRequest]).execute obliging).1 s request part →
        ¬s.Reopens request part :=
  lifecycle_alternates_iff openContext false client.peerIp
    [announceRequest, setupRequest, teardownRequest] _ _ (runs_execute obliging _)

/-- A second SETUP of a running session reports a second start. -/
theorem second_setup_restarts :
    Runs (openContext.handleConnection client [announceRequest, setupRequest, setupRequest])
        ((openContext.handleConnection client
          [announceRequest, setupRequest, setupRequest]).execute obliging).1
        ((openContext.handleConnection client
          [announceRequest, setupRequest, setupRequest]).execute obliging).2 ∧
      sentEvents ((openContext.handleConnection client
          [announceRequest, setupRequest, setupRequest]).execute obliging).1 =
        [.sessionStarted 44100 2 client.peerIp, .sessionStarted 44100 2 client.peerIp,
          .sessionEnded] ∧
      sessionOpen false [.sessionStarted 44100 2 client.peerIp,
        .sessionStarted 44100 2 client.peerIp, .sessionEnded] = none :=
  ⟨runs_execute obliging _, by decide +kernel, rfl⟩

end Context

end OpenAirplay
