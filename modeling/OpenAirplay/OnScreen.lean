import OpenAirplay.Metadata
import OpenAirplay.Mirroring

/-!
# From the requests of a sender to a screen

A sender may send its metadata and its artwork before the stream or during it. Either way a
dashboard that has caught up shows them with the stream, the last of each, and blanks them when
it is over.
-/

namespace OpenAirplay

open Program Register

set_option autoImplicit false

/-! ## What a sender sees -/

/-- Whether its stream is running, and what it has posted since the last one ended. -/
structure Airing where
  live : Bool
  posted : List Event

namespace Airing

/-- A request that is not answered with 200 counts for nothing. -/
def next (a : Airing) (request : Request) (response : Response) : Airing :=
  if response.status ≠ 200 then a
  else if request.method = "SETUP" then { a with live := true }
  else if request.method = "TEARDOWN" then if a.live then ⟨false, []⟩ else a
  else { a with posted := a.posted ++ request.payload.toList }

def run (a : Airing) (answered : List (Request × Response)) : Airing :=
  answered.foldl (fun a answer => a.next answer.1 answer.2) a

variable {a : Airing} {request : Request} {response : Response}

theorem next_of_starts (hmethod : request.method = "SETUP") (hstatus : response.status = 200) :
    a.next request response = { a with live := true } := by
  rw [next, if_neg (not_not_intro hstatus), if_pos hmethod]

theorem next_of_payload {event : Event} (hpayload : request.payload = some event)
    (hstatus : response.status = 200) :
    a.next request response = { a with posted := a.posted ++ [event] } := by
  have hmethod : request.method = "SET_PARAMETER" := by
    by_contra hne
    rw [payload_other hne] at hpayload
    cases hpayload
  rw [next, if_neg (not_not_intro hstatus), if_neg (by simp [hmethod]), if_neg (by simp [hmethod]),
    hpayload, Option.toList_some]

theorem next_of_teardown (hmethod : request.method = "TEARDOWN") (hstatus : response.status = 200) :
    a.next request response = if a.live then ⟨false, []⟩ else a := by
  rw [next, if_neg (not_not_intro hstatus), if_neg (by simp [hmethod]), if_pos hmethod]

theorem next_of_nothing (hsetup : ¬(request.method = "SETUP" ∧ response.status = 200))
    (hdown : request.method ≠ "TEARDOWN") (hpayload : request.payload = none) :
    a.next request response = a := by
  by_cases hstatus : response.status = 200
  · have hmethod : request.method ≠ "SETUP" := fun hmethod => hsetup ⟨hmethod, hstatus⟩
    rw [next, if_neg (not_not_intro hstatus), if_neg hmethod, if_neg hdown, hpayload,
      Option.toList_none, List.append_nil]
  · rw [next, if_pos hstatus]

end Airing

/-! ## What an event describes -/

/-- A register that every event of this kind writes, and otherwise only the end of a session. -/
structure Describes (kind : Kind) {V : Type} (write : Event → Option V) (blank : V) : Prop where
  ended : write .sessionEnded = some blank
  own : ∀ event : Event, event.kind? = some kind → write event ≠ none
  other : ∀ event : Event, event.kind? ≠ some kind → event ≠ .sessionEnded → write event = none

def ofKind (kind : Kind) (event : Event) : Bool := event.kind? = some kind

theorem describes_track (field : Dashboard.Track → Option String) :
    Describes .metadata (Event.track? field) (field Tui.noTrack) := by
  refine ⟨rfl, fun event hkind => ?_, fun event hkind hended => ?_⟩
  · cases event with
    | metadata title artist album => exact Option.some_ne_none _
    | _ => cases hkind
  · cases event <;> first | rfl | exact absurd rfl hkind | exact absurd rfl hended

theorem describes_artwork : Describes .artwork Event.artwork? none := by
  refine ⟨rfl, fun event hkind => ?_, fun event hkind hended => ?_⟩
  · cases event with
    | artwork contentType data => exact Option.some_ne_none _
    | _ => cases hkind
  · cases event <;> first | rfl | exact absurd rfl hkind | exact absurd rfl hended

namespace Describes

variable {kind : Kind} {V : Type} {write : Event → Option V} {blank v : V} {events : List Event}

/-- Only the last of its kind counts. -/
theorem after_last (h : Describes kind write blank) (hevents : ∀ e ∈ events, e ≠ .sessionEnded) :
    after write v (events.filter (ofKind kind)).getLast?.toList = after write v events := by
  induction events using List.reverseRecOn with
  | nil => rfl
  | append_singleton events e ih =>
    have hrest := ih fun e he => hevents e (List.mem_append_left _ he)
    rw [List.filter_append, after_append]
    by_cases hkind : e.kind? = some kind
    · obtain ⟨x, hx⟩ := Option.ne_none_iff_exists'.mp (h.own e hkind)
      simp [ofKind, hkind, hx]
    · have hnone := h.other e hkind (hevents e (by simp))
      have hnot : [e].filter (ofKind kind) = [] := by simp [ofKind, hkind]
      rw [hnot, List.append_nil, hrest, after_cons, hnone, Option.getD_none, after_nil]

end Describes

/-! ## What a session makes of it -/

def Latch.held (l : Latch) : Kind → Option Event
  | .metadata => l.metadata
  | .artwork => l.artwork

/-- What is posted outside a stream is held and shows nowhere; with the stream it is shown. -/
structure Airs (kind : Kind) {V : Type} (write : Event → Option V) (blank : V) (a : Airing)
    (l : Latch) (v : V) : Prop where
  live : a.live = l.streaming
  posted : ∀ event ∈ a.posted, event.kind?.isSome
  shown : l.streaming = true → (∀ kind, l.held kind = none) ∧ v = after write blank a.posted
  waiting : l.streaming = false → v = blank ∧
    ∀ kind, l.held kind = (a.posted.filter (ofKind kind)).getLast?

section Airs

variable {kind : Kind} {V : Type} {write : Event → Option V} {blank v : V} {a : Airing}
  {l l' : Latch} {step : Step}

theorem ne_sessionEnded {event : Event} (h : event.kind?.isSome) : event ≠ .sessionEnded := by
  rintro rfl
  cases h

theorem Latch.held_hold {event : Event} {own : Kind} (hkind : event.kind? = some own) (kind : Kind) :
    (l.hold event).held kind = if kind = own then some event else l.held kind := by
  cases event with
  | metadata title artist album =>
    obtain rfl := Option.some.inj hkind
    cases kind <;> rfl
  | artwork contentType data =>
    obtain rfl := Option.some.inj hkind
    cases kind <;> rfl
  | _ => cases hkind

/-- A stream starts with what was held for it. -/
theorem Airs.opening (h : Airs kind write blank a l v) (hdescribes : Describes kind write blank) :
    after write v (l.metadata.toList ++ l.artwork.toList) = after write blank a.posted := by
  have hended : ∀ event ∈ a.posted, event ≠ .sessionEnded :=
    fun event hevent => ne_sessionEnded (h.posted event hevent)
  cases hs : l.streaming with
  | true =>
    obtain ⟨hnone, rfl⟩ := h.shown hs
    have hmetadata : l.metadata = none := hnone .metadata
    have hartwork : l.artwork = none := hnone .artwork
    rw [hmetadata, hartwork]
    rfl
  | false =>
    obtain ⟨rfl, hheld⟩ := h.waiting hs
    have hsilent : ∀ other, other ≠ kind → ∀ event ∈ (l.held other).toList, write event = none := by
      intro other hne event hevent
      rw [hheld other, Option.mem_toList] at hevent
      obtain ⟨hmem, hkind⟩ := List.mem_filter.mp (List.mem_of_getLast? hevent)
      refine hdescribes.other event ?_ (hended event hmem)
      rw [of_decide_eq_true hkind]
      exact fun heq => hne (Option.some.inj heq)
    have hlast := hdescribes.after_last (v := v) hended
    rw [← hheld kind] at hlast
    rw [after_append, ← hlast]
    cases kind with
    | metadata => exact after_of_silent (hsilent .artwork (by decide))
    | artwork =>
      have hnone := after_of_silent (v := v) (hsilent .metadata (by decide))
      exact congrArg (after write · l.artwork.toList) hnone

theorem Airs.still (h : Airs kind write blank a l v) (hdescribes : Describes kind write blank)
    {events : List Event}
    (hevents : ∀ event ∈ events, event.isLifecycle = false ∧ event.kind? = none) :
    Airs kind write blank a l (after write v events) := by
  rw [after_of_silent]
  · exact h
  · intro event hevent
    obtain ⟨hother, hnone⟩ := hevents event hevent
    refine hdescribes.other event (by simp [hnone]) ?_
    rintro rfl
    cases hother

theorem Latch.streaming_hold (l : Latch) (event : Event) :
    (l.hold event).streaming = l.streaming := by
  cases event <;> rfl

/-- Nothing is over where there is no stream. -/
theorem Airs.next_of_idle (h : Airs kind write blank a l v) (hs : l.streaming = false)
    (hstarts : step.starts = false) (hpayload : step.request.payload = none) :
    a.next step.request step.response = a := by
  by_cases hmethod : step.request.method = "TEARDOWN"
  · by_cases hstatus : step.response.status = 200
    · rw [Airing.next_of_teardown hmethod hstatus, h.live, hs]
      rfl
    · rw [Airing.next, if_pos hstatus]
  · exact Airing.next_of_nothing (by simpa [Step.starts] using hstarts) hmethod hpayload

/-- One request that passes the password check. -/
theorem Airs.next (h : Airs kind write blank a l v) (hdescribes : Describes kind write blank)
    (htells : l.Tells step l') (hposts : step.request.payload ≠ none → step.response.status = 200)
    (hdown : step.request.method = "TEARDOWN" →
      step.response.status = 200 ∧ l'.streaming = false)
    (hkeeps : step.request.method ≠ "TEARDOWN" → l.streaming = true → l'.streaming = true) :
    Airs kind write blank (a.next step.request step.response) l' (after write v step.events) := by
  cases htells with
  | @live event _ hpayload hs hevents =>
    obtain ⟨hnone, rfl⟩ := h.shown hs
    rw [Airing.next_of_payload hpayload (hposts (by simp [hpayload])), hevents]
    refine ⟨h.live, ?_, fun _ => ⟨hnone, (after_append write blank a.posted [event]).symm⟩, ?_⟩
    · simpa [or_imp, forall_and] using ⟨h.posted, payload_kind hpayload⟩
    · intro hidle
      rw [hs] at hidle
      cases hidle
  | @held event _ hpayload hs hevents =>
    obtain ⟨rfl, hheld⟩ := h.waiting hs
    obtain ⟨own, hown⟩ := Option.isSome_iff_exists.mp (payload_kind hpayload)
    rw [Airing.next_of_payload hpayload (hposts (by simp [hpayload])), hevents]
    refine ⟨h.live.trans (l.streaming_hold event).symm, ?_, ?_, fun _ => ⟨rfl, fun other => ?_⟩⟩
    · simpa [or_imp, forall_and] using ⟨h.posted, payload_kind hpayload⟩
    · intro hlive
      rw [l.streaming_hold, hs] at hlive
      cases hlive
    · rw [Latch.held_hold hown, List.filter_append, hheld other]
      by_cases hother : other = own
      · simp [ofKind, hother, hown]
      · have hne : ¬own = other := fun heq => hother heq.symm
        simp [ofKind, hother, hown, hne]
  | @started rate channels peer hstarts hevents =>
    have hsilent : write (.sessionStarted rate channels peer) = none :=
      hdescribes.other _ (by simp [Event.kind?]) (by simp)
    obtain ⟨hmethod, hstatus⟩ : step.request.method = "SETUP" ∧ step.response.status = 200 := by
      simpa [Step.starts] using hstarts
    rw [Airing.next_of_starts hmethod hstatus, hevents, after_cons, hsilent, Option.getD_none]
    refine ⟨rfl, h.posted, fun _ => ⟨fun kind => ?_, h.opening hdescribes⟩, by simp⟩
    cases kind <;> rfl
  | ended hstarts hpayload hevents =>
    cases hs : l.streaming with
    | true =>
      have hmethod : step.request.method = "TEARDOWN" := by
        by_contra hne
        cases hkeeps hne hs
      obtain ⟨hstatus, -⟩ := hdown hmethod
      obtain ⟨hnone, -⟩ := h.shown hs
      rw [Airing.next_of_teardown hmethod hstatus, h.live, hevents, hs, if_pos rfl, if_pos rfl,
        after_cons, hdescribes.ended]
      refine ⟨rfl, by simp, by simp, fun _ => ⟨rfl, fun kind => ?_⟩⟩
      cases kind with
      | metadata => exact hnone .metadata
      | artwork => exact hnone .artwork
    | false =>
      have hsame : ({ l with streaming := false } : Latch) = l := by rw [← hs]
      rw [h.next_of_idle hs hstarts hpayload, hevents, hs, hsame]
      exact h
  | other hstarts hpayload hevents =>
    have hsame : a.next step.request step.response = a := by
      cases hs : l.streaming with
      | true =>
        refine Airing.next_of_nothing (by simpa [Step.starts] using hstarts) ?_ hpayload
        intro hmethod
        rw [(hdown hmethod).2] at hs
        cases hs
      | false => exact h.next_of_idle hs hstarts hpayload
    rw [hsame]
    exact h.still hdescribes hevents

end Airs

namespace Session

variable {ctx : Context} {s s' : Session} {request : Request} {trace : Trace} {response : Response}

theorem handleOther_ok {crates : Crates} {other : Option Response}
    (hmethod : request.method = "TEARDOWN" ∨ request.method = "SET_PARAMETER")
    (h : Runs (s.handleOther crates request) trace (s', other)) : other = some .ok := by
  unfold handleOther at h
  split at h
  · obtain ⟨_, _, _, _, _, hpure⟩ := runs_bind.mp h
    exact (Prod.mk.inj (runs_pure.mp hpure).2).2
  · obtain ⟨_, _, _, _, _, hpure⟩ := runs_bind.mp h
    exact (Prod.mk.inj (runs_pure.mp hpure).2).2
  · obtain ⟨_, _, _, _, _, hpure⟩ := runs_bind.mp h
    exact (Prod.mk.inj (runs_pure.mp hpure).2).2
  · exact (Prod.mk.inj (runs_pure.mp h).2).2
  · rename_i hdown _ hset _
    exact (hmethod.elim hdown hset).elim

theorem status_of_owned (hmethod : request.method = "TEARDOWN" ∨ request.method = "SET_PARAMETER")
    (h : Runs (ctx.route s request) trace (s', response)) : response.status = 200 := by
  unfold Context.route at h
  split at h
  · rename_i hoptions
    simp [hoptions] at hmethod
  · rename_i hannounce
    simp [hannounce] at hmethod
  · rename_i hsetup
    simp [hsetup] at hmethod
  · rename_i hrecord
    simp [hrecord] at hmethod
  · obtain ⟨_, ⟨s'', other⟩, _, rfl, hother, hpure⟩ := runs_bind.mp h
    obtain ⟨-, heq⟩ := runs_pure.mp hpure
    obtain ⟨-, rfl⟩ := Prod.mk.inj heq
    rw [handleOther_ok hmethod hother]
    rfl

/-- Only a TEARDOWN ends a stream while the connection lasts. -/
theorem streaming_route (h : Runs (ctx.route s request) trace (s', response)) :
    (request.method = "TEARDOWN" → s'.streaming = false) ∧
      (request.method ≠ "TEARDOWN" → s.streaming = true → s'.streaming = true) := by
  cases byMethod h with
  | idle hother =>
    exact ⟨fun hdown => absurd (by simp [hdown]) hother, fun _ hs => hs⟩
  | announced hmethod => exact ⟨fun hdown => by simp [hmethod] at hdown, fun _ hs => hs⟩
  | setup hmethod hrun =>
    refine ⟨fun hdown => by simp [hmethod] at hdown, fun _ hs => ?_⟩
    rcases setup_cases hrun with ⟨_, _, rfl, _⟩ | ⟨_, _, _, rfl, _⟩ | ⟨_, _, rfl, _⟩ |
      ⟨params, ports, _, _, _, hst⟩
    · exact hs
    · exact hs
    · exact hs
    · obtain ⟨_, _, _, _, _, _, _, _, _, _, rfl⟩ := hst.opening
      rfl
  | teardown hmethod hrun =>
    obtain ⟨_, rfl⟩ := runs_teardown.mp hrun
    exact ⟨fun _ => rfl, fun hne => absurd hmethod hne⟩
  | flush hmethod hrun => exact ⟨fun hdown => by simp [hmethod] at hdown, fun _ hs => hs⟩
  | parameter hmethod hrun =>
    refine ⟨fun hdown => by simp [hmethod] at hdown, fun _ hs => ?_⟩
    rw [(runs_setParameter hrun).2.same]
    exact hs

end Session

section Airs

variable {kind : Kind} {V : Type} {write : Event → Option V} {blank v : V} {a : Airing}
  {ctx : Context} {s s' : Session} {trace : Trace}

theorem Airs.dispatch {request : Request} {response : Response}
    (h : Airs kind write blank a s.latch v) (hdescribes : Describes kind write blank)
    (hrun : Runs (ctx.dispatch s request) trace (s', response)) :
    Airs kind write blank (a.next request response) s'.latch
      (after write v (sentEvents trace)) := by
  by_cases hadmits : s.admits ctx request
  · obtain ⟨routed, rfl, hroute⟩ := Session.runs_dispatch_of_admits hadmits hrun
    have htells : s.latch.Tells ⟨request, ctx.finish request routed, sentEvents trace⟩ s'.latch :=
      Session.tells_route (s := { s with authorized := true })
        (Context.finish_status ctx request routed) rfl hroute
    obtain ⟨hdown, hkeeps⟩ := Session.streaming_route hroute
    refine h.next hdescribes htells (fun hpayload => ?_) (fun hmethod => ?_) hkeeps
    · have hmethod : request.method = "SET_PARAMETER" := by
        by_contra hne
        exact hpayload (payload_other hne)
      exact (Context.finish_status _ _ _).trans
        (Session.status_of_owned (.inr hmethod) hroute)
    · exact ⟨(Context.finish_status _ _ _).trans
        (Session.status_of_owned (.inl hmethod) hroute), hdown hmethod⟩
  · obtain ⟨nonce, rfl, hch⟩ := Session.runs_dispatch_of_not_admits hadmits hrun
    have hnext : a.next request (ctx.finish request (Session.challenge nonce)) = a := by
      rw [Airing.next, if_pos]
      rw [Context.finish_status]
      simp [Session.challenge]
    have hnothing : sentEvents trace = [] := by
      rcases hch.issued with ⟨_, rfl⟩ | ⟨_, bytes, _, rfl⟩ <;> rfl
    obtain rfl := hch.nonce_of_session
    rw [hnext, hnothing]
    exact h

theorem Airs.serve {requests : List Request} {responses : List Response}
    (h : Airs kind write blank a s.latch v) (hdescribes : Describes kind write blank)
    (hrun : Runs (ctx.serve s requests) trace (s', responses)) :
    Airs kind write blank (a.run (requests.zip responses)) s'.latch
      (after write v (sentEvents trace)) := by
  induction requests generalizing s a v trace responses with
  | nil =>
    obtain ⟨rfl, heq⟩ := runs_pure.mp hrun
    obtain ⟨rfl, rfl⟩ := Prod.mk.inj heq
    exact h
  | cons request requests ih =>
    obtain ⟨part, s₁, response, rest, responses', rfl, hdispatch, hserve, rfl⟩ :=
      Context.runs_serve_cons.mp hrun
    rw [sentEvents_append, after_append, List.zip_cons_cons]
    exact ih (h.dispatch hdescribes hdispatch) hserve

theorem airs_new (observer : Bool) (peerIp : IpAddr) :
    Airs kind write blank ⟨false, []⟩ (Session.new observer peerIp).latch blank := by
  refine ⟨rfl, by simp, fun hs => ?_, fun _ => ⟨rfl, fun kind => ?_⟩⟩
  · cases hs
  · cases kind <;> rfl

/-- A connection that is over leaves nothing behind. -/
theorem blank_after_connection (hdescribes : Describes kind write blank) {observer : Bool}
    {peerIp : IpAddr} {requests : List Request} {responses : List Response}
    (hrun : Runs (ctx.handleConnection (.new observer peerIp) requests) trace responses) :
    after write blank (sentEvents trace) = blank := by
  obtain ⟨before, ⟨s, replies⟩, rest, rfl, hserve, hrest⟩ := runs_bind.mp hrun
  obtain ⟨last, _, _, rfl, hdrop, hpure⟩ := runs_bind.mp hrest
  obtain ⟨rfl, rfl⟩ := runs_pure.mp hpure
  have hairs := (airs_new observer peerIp).serve hdescribes hserve
  rw [List.append_nil, sentEvents_append, after_append, Session.sentEvents_drop hdrop,
    Session.sentEvents_ending]
  cases hs : s.streaming with
  | true => rw [if_pos rfl, after_cons, hdescribes.ended, Option.getD_some, after_nil]
  | false => exact (hairs.waiting hs).1

end Airs

/-! ## Whether there is a session -/

theorem isSome_session (session : Option Tui.Session) (events : List Event) :
    (after Event.session? session events).isSome = streamingFrom session.isSome events := by
  induction events generalizing session with
  | nil => rfl
  | cons event events ih =>
    rw [after_cons, ih, streamingFrom, streamingFrom, List.foldl_cons]
    cases event <;> rfl

theorem Latch.Tells.streaming {l l' : Latch} {step : Step} (h : l.Tells step l')
    (hother : ∀ event ∈ l.metadata.toList ++ l.artwork.toList, event.isLifecycle = false) :
    streamingFrom l.streaming step.events = l'.streaming := by
  cases h with
  | @live event _ hpayload _ hevents =>
    rw [hevents]
    apply streamingFrom_other
    simpa using Event.lifecycle_of_kind (payload_kind hpayload)
  | held _ _ _ hevents =>
    rw [hevents, l.streaming_hold]
    rfl
  | started _ hevents =>
    rw [hevents]
    exact streamingFrom_other true hother
  | ended _ _ hevents =>
    rw [hevents]
    cases hs : l.streaming <;> rfl
  | other _ _ hevents => exact streamingFrom_other _ fun event hevent => (hevents event hevent).1

section Streaming

variable {ctx : Context} {s s' : Session} {trace : Trace}

theorem streamingFrom_dispatch {request : Request} {response : Response}
    (hlatched : s.LatchesOther) (hrun : Runs (ctx.dispatch s request) trace (s', response)) :
    streamingFrom s.streaming (sentEvents trace) = s'.streaming := by
  by_cases hadmits : s.admits ctx request
  · obtain ⟨routed, rfl, hroute⟩ := Session.runs_dispatch_of_admits hadmits hrun
    have htells : s.latch.Tells ⟨request, ctx.finish request routed, sentEvents trace⟩ s'.latch :=
      Session.tells_route (s := { s with authorized := true })
        (Context.finish_status ctx request routed) rfl hroute
    exact htells.streaming hlatched
  · obtain ⟨nonce, -, hch⟩ := Session.runs_dispatch_of_not_admits hadmits hrun
    obtain rfl := hch.nonce_of_session
    rcases hch.issued with ⟨_, rfl⟩ | ⟨_, bytes, _, rfl⟩ <;> rfl

theorem streamingFrom_serve {requests : List Request} {responses : List Response}
    (hlatched : s.LatchesOther) (hrun : Runs (ctx.serve s requests) trace (s', responses)) :
    streamingFrom s.streaming (sentEvents trace) = s'.streaming := by
  induction requests generalizing s trace responses with
  | nil =>
    obtain ⟨rfl, heq⟩ := runs_pure.mp hrun
    obtain ⟨rfl, rfl⟩ := Prod.mk.inj heq
    rfl
  | cons request requests ih =>
    obtain ⟨part, s₁, response, rest, responses', rfl, hdispatch, hserve, rfl⟩ :=
      Context.runs_serve_cons.mp hrun
    obtain ⟨hlatched₁, -⟩ := Session.sessionOpen_dispatch hlatched hdispatch
    rw [sentEvents_append, streamingFrom_append, streamingFrom_dispatch hlatched hdispatch]
    exact ih hlatched₁ hserve

theorem latchesOther_new (observer : Bool) (peerIp : IpAddr) :
    (Session.new observer peerIp).LatchesOther := by
  simp [Session.LatchesOther, Session.latched, Session.new]

theorem idle_after_connection {observer : Bool} {peerIp : IpAddr} {requests : List Request}
    {responses : List Response}
    (hrun : Runs (ctx.handleConnection (.new observer peerIp) requests) trace responses) :
    streamingFrom false (sentEvents trace) = false := by
  obtain ⟨before, ⟨s, replies⟩, rest, rfl, hserve, hrest⟩ := runs_bind.mp hrun
  obtain ⟨last, _, _, rfl, hdrop, hpure⟩ := runs_bind.mp hrest
  obtain ⟨rfl, rfl⟩ := runs_pure.mp hpure
  have hlive := streamingFrom_serve (latchesOther_new observer peerIp) hserve
  rw [List.append_nil, sentEvents_append, streamingFrom_append, Session.sentEvents_drop hdrop,
    Session.sentEvents_ending]
  cases hs : s.streaming with
  | true => rfl
  | false =>
    rw [hs] at hlive
    exact hlive

end Streaming

/-! ## One connection after another -/

/-- All that a connection did from its start to its end. -/
def Concluded (ctx : Context) (trace : Trace) : Prop :=
  ∃ observer peerIp requests responses,
    Runs (ctx.handleConnection (.new observer peerIp) requests) trace responses

theorem blank_after_connections {ctx : Context} {earlier : List Trace}
    (h : ∀ trace ∈ earlier, Concluded ctx trace) :
    streamingFrom false (earlier.flatMap sentEvents) = false ∧
      ∀ {kind : Kind} {V : Type} {write : Event → Option V} {blank : V},
        Describes kind write blank → after write blank (earlier.flatMap sentEvents) = blank := by
  induction earlier with
  | nil => exact ⟨rfl, fun _ => rfl⟩
  | cons trace earlier ih =>
    obtain ⟨observer, peerIp, requests, responses, hrun⟩ := h trace List.mem_cons_self
    obtain ⟨hidle, hblank⟩ := ih fun t ht => h t (List.mem_cons_of_mem _ ht)
    refine ⟨?_, fun hdescribes => ?_⟩
    · rw [List.flatMap_cons, streamingFrom_append, idle_after_connection hrun, hidle]
    · rw [List.flatMap_cons, after_append, blank_after_connection hdescribes hrun,
        hblank hdescribes]

/-! ## On the screen -/

/-- The events that the sessions send. The playback thread reports positions besides. -/
def ofSessions (events : List Event) : List Event :=
  events.filter fun
    | .progress _ _ => false
    | _ => true

/-- A register that is none of the position. -/
theorem after_ofSessions {V : Type} {write : Event → Option V}
    (hwrite : ∀ elapsed duration, write (.progress elapsed duration) = none) (v : V)
    (events : List Event) : after write v (ofSessions events) = after write v events := by
  induction events generalizing v with
  | nil => rfl
  | cons event events ih =>
    cases event with
    | progress elapsed duration =>
      rw [after_cons, hwrite, Option.getD_none]
      exact ih v
    | _ => exact ih _

theorem Describes.progress {kind : Kind} {V : Type} {write : Event → Option V} {blank : V}
    (h : Describes kind write blank) (elapsed duration : Duration) :
    write (.progress elapsed duration) = none := by
  apply h.other <;> simp [Event.kind?]

/-- A screen with a stream and the last of what was posted for it, or without a stream. -/
structure Tui.NowPlaying.Shows (n : Tui.NowPlaying) (airing : Airing) : Prop where
  session : n.session.isSome = airing.live
  title : n.title = if airing.live then
    after (Event.track? Dashboard.Track.title) none airing.posted else none
  artist : n.artist = if airing.live then
    after (Event.track? Dashboard.Track.artist) none airing.posted else none
  album : n.album = if airing.live then
    after (Event.track? Dashboard.Track.album) none airing.posted else none
  artwork : n.artwork = if airing.live then after Event.artwork? none airing.posted else none

theorem after_connections {ctx : Context} {earlier : List Trace}
    (hearlier : ∀ trace ∈ earlier, Concluded ctx trace) {observer : Bool} {peerIp : IpAddr}
    {requests : List Request} {trace : Trace} {s : Session} {responses : List Response}
    (hrun : Runs (ctx.serve (.new observer peerIp) requests) trace (s, responses)) {kind : Kind}
    {V : Type} {write : Event → Option V} {blank : V} (hdescribes : Describes kind write blank) :
    after write blank (earlier.flatMap sentEvents ++ sentEvents trace) =
      if s.streaming then
        after write blank (Airing.run ⟨false, []⟩ (requests.zip responses)).posted
      else blank := by
  have hairs := (airs_new observer peerIp).serve hdescribes hrun
  rw [after_append, (blank_after_connections hearlier).2 hdescribes]
  cases hs : s.streaming with
  | true => exact (hairs.shown hs).2
  | false => exact (hairs.waiting hs).1

/-- After any number of connections that are over, one that is not, with whatever requests: a
dashboard that has caught up shows its stream, if there is one, with the last metadata and artwork
that were posted since the stream before, be it ahead of the SETUP; and otherwise nothing. -/
theorem shown_as_posted (ctx : Context) (earlier : List Trace)
    (hearlier : ∀ trace ∈ earlier, Concluded ctx trace) (observer : Bool) (peerIp : IpAddr)
    (requests : List Request) (trace : Trace) (s : Session) (responses : List Response)
    (hrun : Runs (ctx.serve (.new observer peerIp) requests) trace (s, responses))
    (encode : Bytes → String) (decode : String → Option Bytes)
    (hcodec : Dashboard.Base64Codec encode decode)
    (parse : String → Option Dashboard.Message) (name version : String)
    (actions : List Dashboard.Action) (service : Dashboard.Service)
    (hservice : Transitions.Run (Dashboard.Step encode) (.new name version) actions service)
    (hpublished : ofSessions (Dashboard.published actions) =
      ofSessions (earlier.flatMap sentEvents ++ sentEvents trace))
    (hphase : service.phase = .serving)
    (hend : Broadcast.recv Dashboard.channelCapacity service.sent service.cursor = none)
    (hhalf : service.half = none) (frames : List (Option Client.WsMessage))
    (hframes : Tui.Carries parse frames service.received) (screen : Tui.Screen) :
    (screen.run decode (.connected :: Client.forwarded parse frames)).Shows
      (Airing.run ⟨false, []⟩ (requests.zip responses)) := by
  have hmirrors := Tui.mirrors_of_fold screen.toNowPlaying hcodec
    (Tui.fold_received hservice hphase hend hhalf) (Dashboard.snapshot_received hservice hphase)
  have hlive : (Airing.run ⟨false, []⟩ (requests.zip responses)).live = s.streaming :=
    ((airs_new observer peerIp).serve describes_artwork hrun).live
  have hsame : ∀ {V : Type} {write : Event → Option V},
      (∀ elapsed duration, write (.progress elapsed duration) = none) → ∀ v,
        after write v (Dashboard.published actions) =
          after write v (earlier.flatMap sentEvents ++ sentEvents trace) := by
    intro V write hwrite v
    rw [← after_ofSessions hwrite, hpublished, after_ofSessions hwrite]
  have hlast : ∀ {kind : Kind} {V : Type} {write : Event → Option V} {blank : V},
      Describes kind write blank → after write blank (Dashboard.published actions) =
        if s.streaming then
          after write blank (Airing.run ⟨false, []⟩ (requests.zip responses)).posted
        else blank :=
    fun hdescribes => (hsame hdescribes.progress _).trans
      (after_connections hearlier hrun hdescribes)
  rw [Tui.run_carried hframes decode screen]
  constructor
  · rw [hlive, hmirrors.session, hsame fun _ _ => rfl, isSome_session, streamingFrom_append,
      Option.isSome_none, (blank_after_connections hearlier).1]
    exact streamingFrom_serve (latchesOther_new observer peerIp) hrun
  · rw [hlive]
    exact hmirrors.title.trans (hlast (describes_track _))
  · rw [hlive]
    exact hmirrors.artist.trans (hlast (describes_track _))
  · rw [hlive]
    exact hmirrors.album.trans (hlast (describes_track _))
  · rw [hlive]
    exact hmirrors.artwork.trans (hlast describes_artwork)

/-! ## Artwork ahead of the stream -/

def coverEvents : List Event :=
  [.sessionStarted 44100 2 client.peerIp, .artwork "image/jpeg" [255, 216]]

def coverActions : List Dashboard.Action :=
  (coverEvents.flatMap fun event => [.apply event, .send false]) ++
    [.subscribe, .handshake, .snapshot]

def coverSnapshot : Dashboard.Snapshot :=
  ⟨⟨"Living Room", "1"⟩, some ⟨44100, 2, "192.168.1.2"⟩, none, none, none,
    some ⟨"image/jpeg", "/9g="⟩⟩

def coverService : Dashboard.Service :=
  ⟨coverSnapshot, none, [], .serving, 0, [.snapshot coverSnapshot]⟩

theorem cover_run : Transitions.Run (Dashboard.Step Tui.base64Text) (.new "Living Room" "1")
    coverActions coverService := by
  have hready : ∀ {s : Dashboard.Service}, s.phase = .connecting →
      s.phase ≠ .connecting → false = true := fun h hne => absurd h hne
  apply Transitions.Run.cons (.apply rfl)
  apply Transitions.Run.cons (.send rfl (hready rfl))
  apply Transitions.Run.cons (.apply rfl)
  apply Transitions.Run.cons (.send rfl (hready rfl))
  apply Transitions.Run.cons (.subscribe rfl)
  apply Transitions.Run.cons (.handshake rfl)
  exact Transitions.Run.single (.snapshot (.inl rfl))

def coverText : String :=
  "\x7b\"type\":\"snapshot\"," ++
    "\"receiver\":\x7b\"name\":\"Living Room\",\"version\":\"1\"\x7d," ++
    "\"session\":\x7b\"rate\":44100,\"channels\":2,\"peer\":\"192.168.1.2\"\x7d," ++
    "\"track\":null,\"volume_db\":null,\"progress\":null," ++
    "\"artwork\":\x7b\"content_type\":\"image/jpeg\",\"data_base64\":\"/9g=\"\x7d\x7d"

def coverParse (text : String) : Option Dashboard.Message :=
  if text = coverText then some (.snapshot coverSnapshot) else none

theorem shown_as_posted_cover :
    ((Tui.Screen.new "ws://127.0.0.1:7392" .none).run Tui.base64Data
      (.connected :: Client.forwarded coverParse [some (.text coverText)])).Shows
        ⟨true, [.artwork "image/jpeg" [255, 216]]⟩ := by
  have hcarries : Tui.Carries coverParse [some (.text coverText)] coverService.received :=
    ⟨by simp, .cons (if_pos rfl) .nil⟩
  exact shown_as_posted openContext [] (by simp) false client.peerIp
    [artworkRequest, announceRequest, setupRequest] _ _ _ (runs_execute obliging _)
    Tui.base64Text Tui.base64Data Tui.base64_codec coverParse "Living Room" "1" coverActions
    coverService cover_run rfl rfl rfl rfl [some (.text coverText)] hcarries _

end OpenAirplay
