import OpenAirplay.Authentication
import OpenAirplay.Lifecycle
import OpenAirplay.Shared.Transitions

/-!
# Metadata and artwork of one connection

What the host is told about the track, over any sequence of requests. Inside a session it
is told at once; what comes outside waits for the next one, the latest of each kind.
-/

namespace OpenAirplay

open Program Transitions Text

set_option autoImplicit false

inductive Kind where
  | metadata
  | artwork
  deriving DecidableEq

def Event.kind? : Event → Option Kind
  | .metadata _ _ _ => some .metadata
  | .artwork _ _ => some .artwork
  | _ => none

/-- The metadata or artwork in a `SET_PARAMETER` body of this content type. -/
def parameterEvent (contentType : Option String) (body : Bytes) : Option Event :=
  match contentType.map fun ct => trim ((split ct ';').headD ct) with
  | none => none
  | some mediaType =>
    if eqIgnoreAsciiCase mediaType dmapContentType then
      (Dmap.parse body).map fun tags => .metadata tags.title tags.artist tags.album
    else if Session.isImage mediaType then some (.artwork mediaType body)
    else none

def Request.payload (request : Request) : Option Event :=
  if request.method = "SET_PARAMETER" then
    parameterEvent (request.headers.get "Content-Type") request.body
  else none

/-! ## The rule -/

/-- A request with its response and the events sent while it was handled. -/
structure Step where
  request : Request
  response : Response
  events : List Event

def streamingFrom (streaming : Bool) (events : List Event) : Bool :=
  events.foldl (fun streaming event =>
    match event with
    | .sessionStarted _ _ _ => true
    | .sessionEnded => false
    | _ => streaming) streaming

/-- The last session event says whether a session is streaming. -/
def streamingAfter (steps : List Step) : Bool := streamingFrom false (steps.flatMap Step.events)

def Step.idle (step : Step) : Bool := step.events.all fun event => !event.isLifecycle

/-- The latest of its kind among the payloads received since the last session event. -/
def waiting (kind : Kind) (steps : List Step) : Option Event :=
  (steps.reverse.takeWhile Step.idle).findSome? fun step =>
    step.request.payload.filter fun event => event.kind? = some kind

/-- A successful SETUP. -/
def Step.starts (step : Step) : Bool :=
  step.request.method = "SETUP" && step.response.status = 200

/-- The metadata and artwork the host is to get while `step` is handled after `pre`. -/
def due (pre : List Step) (step : Step) : List Event :=
  if step.starts then
    if streamingAfter pre then []
    else (waiting .metadata pre).toList ++ (waiting .artwork pre).toList
  else if streamingAfter pre then step.request.payload.toList
  else []

/-- A step after `pre` tells what is due, after its own start and inside a session. -/
structure Told (pre : List Step) (step : Step) : Prop where
  sent : step.events.filter (fun event => event.kind?.isSome) = due pre step
  opening : if step.starts then
      ∃ rate channels peer, step.events = .sessionStarted rate channels peer :: due pre step
    else ∀ rate channels peer, .sessionStarted rate channels peer ∉ step.events
  inside : ∀ before event after, step.events = before ++ event :: after →
    event.kind?.isSome → streamingFrom (streamingAfter pre) before = true

/-- Every payload is sent when it is due, and never outside a session. -/
structure Announced (steps : List Step) : Prop where
  told : ∀ pre step post, steps = pre ++ step :: post → Told pre step
  inside : ∀ before event after, steps.flatMap Step.events = before ++ event :: after →
    event.kind?.isSome → ∃ opened rate channels peer rest,
      before = opened ++ .sessionStarted rate channels peer :: rest ∧ .sessionEnded ∉ rest

theorem Event.lifecycle_of_kind {event : Event} (h : event.kind?.isSome) :
    event.isLifecycle = false := by
  cases event <;> first | rfl | cases h

theorem kind_of_parameter {contentType : Option String} {body : Bytes} {event : Event}
    (h : parameterEvent contentType body = some event) : event.kind?.isSome := by
  unfold parameterEvent at h
  split at h
  · cases h
  · split at h
    · obtain ⟨tags, _, rfl⟩ := Option.map_eq_some_iff.mp h
      rfl
    · split at h
      · cases h
        rfl
      · cases h

theorem payload_kind {request : Request} {event : Event} (h : request.payload = some event) :
    event.kind?.isSome := by
  unfold Request.payload at h
  split at h
  · exact kind_of_parameter h
  · cases h

@[simp] theorem streamingFrom_append (streaming : Bool) (events more : List Event) :
    streamingFrom streaming (events ++ more) =
      streamingFrom (streamingFrom streaming events) more := by
  simp [streamingFrom, List.foldl_append]

theorem streamingFrom_other (streaming : Bool) {events : List Event}
    (h : ∀ event ∈ events, event.isLifecycle = false) :
    streamingFrom streaming events = streaming := by
  induction events with
  | nil => rfl
  | cons event events ih =>
    have hrest := ih fun e he => h e (List.mem_cons_of_mem event he)
    have hevent := h event List.mem_cons_self
    cases event <;> first | exact hrest | cases hevent

/-- A session is streaming exactly when one was started and not ended since. -/
theorem opened_of_streaming {events : List Event} (h : streamingFrom false events = true) :
    ∃ opened rate channels peer rest,
      events = opened ++ .sessionStarted rate channels peer :: rest ∧ .sessionEnded ∉ rest := by
  induction events using List.reverseRecOn with
  | nil => cases h
  | append_singleton events event ih =>
    rw [streamingFrom_append] at h
    cases hevent : event.isLifecycle with
    | false =>
      rw [streamingFrom_other _ (by simpa using hevent)] at h
      obtain ⟨opened, rate, channels, peer, rest, rfl, hrest⟩ := ih h
      refine ⟨opened, rate, channels, peer, rest ++ [event], by simp, ?_⟩
      rw [List.mem_append, List.mem_singleton, not_or]
      refine ⟨hrest, ?_⟩
      rintro rfl
      cases hevent
    | true =>
      cases event with
      | sessionStarted rate channels peer => exact ⟨events, rate, channels, peer, [], rfl, by simp⟩
      | sessionEnded => cases h
      | _ => cases hevent

theorem announced_of_told {steps : List Step}
    (h : ∀ pre step post, steps = pre ++ step :: post → Told pre step) : Announced steps := by
  refine ⟨h, ?_⟩
  induction steps using List.reverseRecOn with
  | nil => simp
  | append_singleton steps step ih =>
    intro before event after hsplit hkind
    rw [List.flatMap_append, List.flatMap_singleton] at hsplit
    rcases List.append_eq_append_iff.mp hsplit with ⟨rest, rfl, hlast⟩ | ⟨rest, hfirst, hrest⟩
    · refine opened_of_streaming ?_
      rw [streamingFrom_append]
      exact (h steps step [] rfl).inside rest event after hlast hkind
    · cases rest with
      | nil =>
        refine opened_of_streaming ?_
        rw [List.append_nil] at hfirst
        rw [← hfirst]
        exact (h steps step [] rfl).inside [] event after hrest.symm hkind
      | cons first rest =>
        obtain ⟨rfl, rfl⟩ := List.cons.inj hrest
        refine ih ?_ before _ rest hfirst hkind
        intro pre t post hsteps
        exact h pre t (post ++ [step]) (by simp [hsteps])

theorem streamingAfter_snoc (steps : List Step) (step : Step) :
    streamingAfter (steps ++ [step]) = streamingFrom (streamingAfter steps) step.events := by
  simp [streamingAfter]

theorem waiting_snoc (kind : Kind) (steps : List Step) (step : Step) :
    waiting kind (steps ++ [step]) =
      if step.idle then
        (step.request.payload.filter fun event => event.kind? = some kind).or (waiting kind steps)
      else none := by
  simp only [waiting, List.reverse_append, List.reverse_cons, List.reverse_nil, List.nil_append,
    List.cons_append, List.takeWhile_cons]
  split
  · rw [List.findSome?_cons]
    cases step.request.payload.filter fun event => event.kind? = some kind <;> rfl
  · rfl

/-! ## The latches -/

/-- What a session remembers for this. -/
structure Latch where
  streaming : Bool
  metadata : Option Event
  artwork : Option Event

namespace Latch

def hold (l : Latch) (event : Event) : Latch :=
  match event with
  | .artwork _ _ => { l with artwork := some event }
  | _ => { l with metadata := some event }

/-- What a step tells the host, and what is held after it. -/
inductive Tells (l : Latch) (step : Step) : Latch → Prop where
  | live {event : Event} : step.starts = false → step.request.payload = some event →
    l.streaming = true → step.events = [event] → Tells l step l
  | held {event : Event} : step.starts = false → step.request.payload = some event →
    l.streaming = false → step.events = [] → Tells l step (l.hold event)
  | started {rate : U32} {channels : BitVec 8} {peer : IpAddr} : step.starts = true →
    step.events =
      .sessionStarted rate channels peer :: (l.metadata.toList ++ l.artwork.toList) →
    Tells l step ⟨true, none, none⟩
  | ended : step.starts = false → step.request.payload = none →
    step.events = (if l.streaming then [.sessionEnded] else []) →
    Tells l step { l with streaming := false }
  | other : step.starts = false → step.request.payload = none →
    (∀ event ∈ step.events, event.isLifecycle = false ∧ event.kind? = none) → Tells l step l

/-- The latches hold what the rule has waiting, and nothing while a session is streaming. -/
structure Follows (l : Latch) (steps : List Step) : Prop where
  streaming : l.streaming = streamingAfter steps
  live : l.streaming = true → l.metadata = none ∧ l.artwork = none
  idle : l.streaming = false → l.metadata = waiting .metadata steps ∧
    l.artwork = waiting .artwork steps

theorem follows_nil : Follows ⟨false, none, none⟩ [] := ⟨rfl, by simp, fun _ => ⟨rfl, rfl⟩⟩

theorem kind_of_waiting {steps : List Step} {event : Event} {kind : Kind}
    (h : waiting kind steps = some event) : event.kind? = some kind := by
  obtain ⟨step, _, hfound⟩ := List.exists_of_findSome?_eq_some h
  exact of_decide_eq_true (Option.filter_eq_some_iff.mp hfound).2

section Follows

variable {l l' : Latch} {steps : List Step} {step : Step}

theorem Follows.kind (h : l.Follows steps) :
    ∀ event ∈ l.metadata.toList ++ l.artwork.toList, event.kind?.isSome := by
  intro event hevent
  cases hs : l.streaming with
  | true =>
    obtain ⟨hmetadata, hartwork⟩ := h.live hs
    simp [hmetadata, hartwork] at hevent
  | false =>
    obtain ⟨hmetadata, hartwork⟩ := h.idle hs
    rw [hmetadata, hartwork, List.mem_append, Option.mem_toList, Option.mem_toList] at hevent
    rcases hevent with hwait | hwait
    · rw [kind_of_waiting hwait]
      rfl
    · rw [kind_of_waiting hwait]
      rfl

/-- What is held is due at the next start. -/
theorem Follows.due_starts (h : l.Follows steps) (hstarts : step.starts = true) :
    due steps step = l.metadata.toList ++ l.artwork.toList := by
  unfold due
  rw [hstarts, if_pos rfl, ← h.streaming]
  cases hs : l.streaming with
  | true =>
    obtain ⟨hmetadata, hartwork⟩ := h.live hs
    simp [hmetadata, hartwork]
  | false =>
    obtain ⟨hmetadata, hartwork⟩ := h.idle hs
    simp [hmetadata, hartwork]

theorem Follows.due_other (h : l.Follows steps) (hstarts : step.starts = false) :
    due steps step = if l.streaming then step.request.payload.toList else [] := by
  unfold due
  rw [hstarts, if_neg Bool.false_ne_true, h.streaming]

theorem Follows.told_quiet (h : l.Follows steps) (hstarts : step.starts = false)
    (hpayload : step.request.payload = none)
    (hquiet : ∀ event ∈ step.events, event.kind? = none ∧ ∀ rate channels peer,
      event ≠ .sessionStarted rate channels peer) : Told steps step := by
  refine ⟨?_, ?_, ?_⟩
  · rw [h.due_other hstarts, hpayload,
      List.filter_eq_nil_iff.mpr fun event hevent => by simp [(hquiet event hevent).1]]
    simp
  · rw [hstarts, if_neg Bool.false_ne_true]
    exact fun rate channels peer hmem => (hquiet _ hmem).2 rate channels peer rfl
  · intro before event after hsplit hkind
    rw [(hquiet event (by simp [hsplit])).1] at hkind
    cases hkind

theorem Follows.told (h : l.Follows steps) (htells : Tells l step l') : Told steps step := by
  cases htells with
  | @live event hstarts hpayload hs hevents =>
    have hkind := payload_kind hpayload
    refine ⟨?_, ?_, ?_⟩
    · rw [h.due_other hstarts, hs, hpayload, hevents]
      simp [hkind]
    · rw [hstarts, if_neg Bool.false_ne_true, hevents]
      intro rate channels peer hmem
      rw [← List.mem_singleton.mp hmem] at hkind
      cases hkind
    · intro before e after hsplit _
      rw [hevents] at hsplit
      obtain ⟨rfl, -⟩ := List.append_eq_singleton_iff.mp hsplit.symm |>.resolve_right (by simp)
      rw [← h.streaming, hs]
      rfl
  | held hstarts hpayload hs hevents =>
    refine ⟨?_, ?_, ?_⟩
    · rw [h.due_other hstarts, hs, hevents]
      rfl
    · rw [hstarts, if_neg Bool.false_ne_true, hevents]
      simp
    · simp [hevents]
  | @started rate channels peer hstarts hevents =>
    refine ⟨?_, ?_, ?_⟩
    · rw [h.due_starts hstarts, hevents]
      exact List.filter_eq_self.mpr h.kind
    · rw [hstarts, if_pos rfl, h.due_starts hstarts, hevents]
      exact ⟨rate, channels, peer, rfl⟩
    · intro before event after hsplit hkind
      rw [hevents] at hsplit
      cases before with
      | nil =>
        obtain ⟨rfl, _⟩ := List.cons.inj hsplit
        cases hkind
      | cons first rest =>
        obtain ⟨rfl, hheld⟩ := List.cons.inj hsplit
        refine streamingFrom_other true fun e he => Event.lifecycle_of_kind (h.kind e ?_)
        rw [hheld]
        exact List.mem_append_left _ he
  | ended hstarts hpayload hevents =>
    refine h.told_quiet hstarts hpayload ?_
    rw [hevents]
    cases l.streaming <;> simp [Event.kind?]
  | other hstarts hpayload hevents =>
    refine h.told_quiet hstarts hpayload fun event hevent => ?_
    obtain ⟨hother, hkind⟩ := hevents event hevent
    refine ⟨hkind, ?_⟩
    rintro rate channels peer rfl
    cases hother

theorem Follows.snoc_idle (h : l.Follows steps) (hidle : step.idle) :
    (l.streaming = streamingAfter (steps ++ [step])) ∧
      ∀ kind, waiting kind (steps ++ [step]) =
        (step.request.payload.filter fun event => event.kind? = some kind).or
          (waiting kind steps) := by
  refine ⟨?_, fun kind => by rw [waiting_snoc, if_pos hidle]⟩
  rw [streamingAfter_snoc, ← h.streaming]
  refine (streamingFrom_other _ ?_).symm
  simpa [Step.idle] using hidle

theorem Follows.snoc_held {event : Event} (h : l.Follows steps) (hs : l.streaming = false)
    (hpayload : step.request.payload = some event) (hevents : step.events = []) :
    (l.hold event).Follows (steps ++ [step]) := by
  have hidle : step.idle := by simp [Step.idle, hevents]
  obtain ⟨hstreaming, hwaiting⟩ := h.snoc_idle hidle
  obtain ⟨hmetadata, hartwork⟩ := h.idle hs
  have hkind := payload_kind hpayload
  cases event with
  | metadata title artist album =>
    refine ⟨hstreaming, ?_, fun _ => ⟨?_, ?_⟩⟩
    · simp [hold, hs]
    · rw [hwaiting, hpayload]
      rfl
    · rw [hwaiting, hpayload]
      exact hartwork
  | artwork contentType data =>
    refine ⟨hstreaming, ?_, fun _ => ⟨?_, ?_⟩⟩
    · simp [hold, hs]
    · rw [hwaiting, hpayload]
      exact hmetadata
    · rw [hwaiting, hpayload]
      rfl
  | _ => cases hkind

theorem Follows.snoc (h : l.Follows steps) (htells : Tells l step l') :
    l'.Follows (steps ++ [step]) := by
  cases htells with
  | @live event hstarts hpayload hs hevents =>
    have hother := Event.lifecycle_of_kind (payload_kind hpayload)
    have hidle : step.idle := by simp [Step.idle, hevents, hother]
    obtain ⟨hstreaming, _⟩ := h.snoc_idle hidle
    exact ⟨hstreaming, h.live, by simp [hs]⟩
  | held hstarts hpayload hs hevents => exact h.snoc_held hs hpayload hevents
  | @started rate channels peer hstarts hevents =>
    refine ⟨?_, fun _ => ⟨rfl, rfl⟩, by simp⟩
    rw [streamingAfter_snoc, hevents]
    refine (streamingFrom_other true ?_).symm
    exact fun event hevent => Event.lifecycle_of_kind (h.kind event hevent)
  | ended hstarts hpayload hevents =>
    cases hs : l.streaming with
    | true =>
      have hbusy : step.idle = false := by simp [Step.idle, hevents, hs, Event.isLifecycle]
      refine ⟨?_, by simp, fun _ => ?_⟩
      · rw [streamingAfter_snoc, hevents, hs]
        rfl
      · obtain ⟨hmetadata, hartwork⟩ := h.live hs
        simp [waiting_snoc, hbusy, hmetadata, hartwork]
    | false =>
      have hidle : step.idle := by simp [Step.idle, hevents, hs]
      obtain ⟨hstreaming, hwaiting⟩ := h.snoc_idle hidle
      refine ⟨by rw [← hstreaming, hs], by simp, fun _ => ?_⟩
      simpa [hwaiting, hpayload] using h.idle hs
  | other hstarts hpayload hevents =>
    have hidle : step.idle := by
      simpa [Step.idle] using fun event hevent => (hevents event hevent).1
    obtain ⟨hstreaming, hwaiting⟩ := h.snoc_idle hidle
    refine ⟨hstreaming, h.live, fun hs => ?_⟩
    simpa [hwaiting, hpayload] using h.idle hs

end Follows

end Latch

/-! ## The handlers -/

def artworkRequest : Request :=
  ⟨"SET_PARAMETER", "rtsp://192.168.1.10/1", [("Content-Type", "image/jpeg")], [255, 216]⟩

theorem kind_of_text {streaming : Bool} {trace : Trace} (h : Every (Op.isText streaming) trace) :
    ∀ event ∈ sentEvents trace, event.kind? = none := by
  intro event hevent
  obtain ⟨⟨o, r⟩, hmem, hsent⟩ := List.mem_filterMap.mp hevent
  have htext := h _ hmem
  cases o with
  | ask query => cases hsent
  | act effect =>
    cases effect with
    | send e =>
      cases hsent
      cases event <;> first | rfl | cases htext
    | _ => cases hsent

theorem payload_other {request : Request} (h : request.method ≠ "SET_PARAMETER") :
    request.payload = none := if_neg h

namespace Session

def latch (s : Session) : Latch := ⟨s.streaming, s.pendingMetadata, s.pendingArtwork⟩

theorem parameter_cases {crates : Crates} {s s' : Session} {contentType : Option String}
    {body : Bytes} {trace : Trace} (h : Runs (s.setParameter crates contentType body) trace s') :
    (∃ event, parameterEvent contentType body = some event ∧
        Runs (s.sendSessionEvent event) trace s') ∨
      (parameterEvent contentType body = none ∧ Every (Op.isText s.streaming) trace ∧ s' = s) := by
  have htext : Runs (s.setTextParameters crates body >>= fun _ => pure s) trace s' →
      Every (Op.isText s.streaming) trace ∧ s' = s := by
    intro h
    rw [runs_bind] at h
    obtain ⟨before, _, after, rfl, hlines, hpure⟩ := h
    obtain ⟨rfl, rfl⟩ := runs_pure.mp hpure
    rw [List.append_nil]
    exact ⟨text_setTextLines hlines, rfl⟩
  unfold setParameter at h
  unfold parameterEvent
  generalize (contentType.map fun ct => trim ((split ct ';').headD ct)) = mediaType? at h ⊢
  cases mediaType? with
  | none => exact .inr ⟨rfl, htext h⟩
  | some mediaType =>
    by_cases hdmap : eqIgnoreAsciiCase mediaType dmapContentType = true
    · simp only [hdmap, if_true] at h ⊢
      unfold setMetadata at h
      cases hparse : Dmap.parse body with
      | none =>
        rw [hparse] at h
        obtain ⟨rfl, rfl⟩ := runs_pure.mp h
        exact .inr ⟨rfl, every_nil _, rfl⟩
      | some tags =>
        rw [hparse] at h
        exact .inl ⟨_, rfl, h⟩
    · by_cases himage : isImage mediaType = true
      · simp only [hdmap, himage, if_true] at h ⊢
        exact .inl ⟨_, rfl, h⟩
      · simp only [hdmap, himage] at h ⊢
        exact .inr ⟨rfl, htext h⟩

/-- Inside a session it is sent at once, outside it is held. -/
theorem sendSessionEvent_cases {s s' : Session} {event : Event} {trace : Trace}
    (h : Runs (s.sendSessionEvent event) trace s') :
    (s.streaming = true ∧ sentEvents trace = [event] ∧ s' = s) ∨
      (s.streaming = false ∧ trace = [] ∧ s'.latch = s.latch.hold event) := by
  unfold sendSessionEvent at h
  split at h
  · rename_i hs
    simp only [runs_act_bind, runs_pure] at h
    obtain ⟨rest, rfl, rfl, rfl⟩ := h
    exact .inl ⟨hs, rfl, rfl⟩
  · rename_i hs
    have hfalse : s.streaming = false := by simpa using hs
    split at h
    · obtain ⟨rfl, rfl⟩ := runs_pure.mp h
      exact .inr ⟨hfalse, rfl, rfl⟩
    · rename_i hartwork
      obtain ⟨rfl, rfl⟩ := runs_pure.mp h
      refine .inr ⟨hfalse, rfl, ?_⟩
      cases event <;> first | rfl | exact absurd rfl (hartwork _ _)

section Tells

variable {ctx : Context} {s s' : Session} {step : Step} {trace : Trace} {response : Response}

theorem tells_setup (hmethod : step.request.method = "SETUP")
    (hstatus : step.response.status = response.status) (hevents : step.events = sentEvents trace)
    (h : Runs (s.handleSetup step.request ctx.localIp) trace (s', response)) :
    Latch.Tells s.latch step s'.latch := by
  have hpayload : step.request.payload = none := payload_other (by simp [hmethod])
  have hfails : response.status ≠ 200 → step.starts = false := fun hne => by
    simp [Step.starts, hstatus, hne]
  have hsilent : ∀ {t : Session}, response.status ≠ 200 → sentEvents trace = [] →
      t.latch = s.latch → Latch.Tells s.latch step t.latch := by
    intro t hne hnone hlatch
    rw [hlatch]
    exact .other (hfails hne) hpayload (by simp [hevents, hnone])
  rcases setup_cases h with ⟨_, rfl, rfl, hresponse⟩ | ⟨_, _, rfl, rfl, hresponse⟩ |
    ⟨_, hresponse, rfl, hwhy⟩ | ⟨params, ports, _, _, hresponse, hst⟩
  · exact hsilent (by simp [hresponse]) rfl rfl
  · exact hsilent (by simp [hresponse]) rfl rfl
  · refine hsilent (fun hok => hresponse (by simp [hok])) ?_ rfl
    rcases hwhy with ⟨_, rfl⟩ | ⟨_, rfl⟩ <;> simp [sentEvents_acquired]
  · have hsent := hst.sentEvents_eq
    obtain ⟨_, _, _, _, _, _, _, _, _, _, rfl⟩ := hst.opening
    exact .started (by simp [Step.starts, hmethod, hstatus, hresponse]) (hevents.trans hsent)

theorem tells_route (hstatus : step.response.status = response.status)
    (hevents : step.events = sentEvents trace)
    (h : Runs (ctx.route s step.request) trace (s', response)) :
    Latch.Tells s.latch step s'.latch := by
  have hother : step.request.method ≠ "SETUP" → step.starts = false := fun hne => by
    simp [Step.starts, hne]
  cases byMethod h with
  | idle hmethod =>
    simp only [List.mem_cons, not_or] at hmethod
    exact .other (hother hmethod.1) (payload_other hmethod.2.2.2.1) (by simp [hevents])
  | announced hmethod =>
    exact .other (hother (by simp [hmethod])) (payload_other (by simp [hmethod]))
      (by simp [hevents])
  | setup hmethod hrun => exact tells_setup hmethod hstatus hevents hrun
  | teardown hmethod hrun =>
    rw [sentEvents_teardown hrun, sentEvents_ending] at hevents
    obtain ⟨_, rfl⟩ := runs_teardown.mp hrun
    exact .ended (hother (by simp [hmethod])) (payload_other (by simp [hmethod])) hevents
  | flush hmethod hrun =>
    refine .other (hother (by simp [hmethod])) (payload_other (by simp [hmethod])) ?_
    rw [hevents]
    intro event hevent
    refine ⟨(reports_flush hrun).other event hevent, ?_⟩
    rw [sentEvents_flush hrun, List.mem_singleton] at hevent
    rw [hevent]
    rfl
  | parameter hmethod hrun =>
    have hstarts := hother (by simp [hmethod])
    rcases parameter_cases hrun with ⟨event, hparameter, hsend⟩ | ⟨hparameter, htext, rfl⟩
    · have hpayload : step.request.payload = some event := by
        rw [Request.payload, if_pos hmethod, hparameter]
      rcases sendSessionEvent_cases hsend with ⟨hs, hsent, rfl⟩ | ⟨hs, rfl, hlatch⟩
      · exact .live hstarts hpayload hs (hevents.trans hsent)
      · rw [hlatch]
        exact .held hstarts hpayload hs hevents
    · refine .other hstarts (by rw [Request.payload, if_pos hmethod, hparameter]) ?_
      rw [hevents]
      intro event hevent
      have hreports : Reports trace := htext.mono (Op.isReport_of_isText _)
      exact ⟨hreports.other event hevent, kind_of_text htext event hevent⟩

end Tells

end Session

namespace Context

/-- One request of a connection. -/
def Turn (ctx : Context) (s : Session) (step : Step) (s' : Session) : Prop :=
  ∃ part, Runs (ctx.dispatch s step.request) part (s', step.response) ∧
    step.events = sentEvents part

variable {ctx : Context} {s s' : Session}

theorem turns_of_serve {requests : List Request} {trace : Trace} {responses : List Response}
    (h : Runs (ctx.serve s requests) trace (s', responses)) :
    ∃ steps, Run ctx.Turn s steps s' ∧ steps.map Step.request = requests ∧
      steps.map Step.response = responses ∧ sentEvents trace = steps.flatMap Step.events := by
  induction requests generalizing s trace responses with
  | nil =>
    obtain ⟨rfl, heq⟩ := runs_pure.mp h
    obtain ⟨rfl, rfl⟩ := Prod.mk.inj heq
    exact ⟨[], .nil _, rfl, rfl, rfl⟩
  | cons request requests ih =>
    obtain ⟨part, s₁, response, rest, responses', rfl, hdispatch, hserve, rfl⟩ :=
      runs_serve_cons.mp h
    obtain ⟨steps, hrun, rfl, rfl, hsent⟩ := ih hserve
    refine ⟨⟨request, response, sentEvents part⟩ :: steps, .cons ⟨part, hdispatch, rfl⟩ hrun, rfl,
      rfl, ?_⟩
    rw [sentEvents_append, hsent]
    rfl

theorem told_of_turns {pre steps : List Step} (hfollows : s.latch.Follows pre)
    (hadmits : ∀ first ∈ steps.head?, s.admits ctx first.request) (h : Run ctx.Turn s steps s') :
    ∀ mid step post, steps = mid ++ step :: post → Told (pre ++ mid) step := by
  induction h generalizing pre with
  | nil _ => simp
  | @cons s₀ s₁ s₂ first rest hfirst hrest ih =>
    obtain ⟨part, hdispatch, hevents⟩ := hfirst
    have hin := hadmits first rfl
    obtain ⟨routed, hresponse, hroute⟩ := Session.runs_dispatch_of_admits hin hdispatch
    have htells : Latch.Tells s₀.latch first s₁.latch :=
      Session.tells_route (s := { s₀ with authorized := true }) (by simp [hresponse]) hevents hroute
    have hauth : s₁.authorized = true := by
      rcases Session.dispatch_auth hdispatch with ⟨_, hauth, _⟩ | ⟨hnot, _⟩
      · exact hauth
      · exact absurd hin hnot
    intro mid step post hsplit
    cases mid with
    | nil =>
      obtain ⟨rfl, -⟩ := List.cons.inj hsplit
      rw [List.append_nil]
      exact hfollows.told htells
    | cons _ mid =>
      obtain ⟨rfl, hrest⟩ := List.cons.inj hsplit
      rw [← List.singleton_append, ← List.append_assoc]
      exact ih (hfollows.snoc htells) (by simp [Session.admits, hauth]) mid step post hrest

/-- Metadata and artwork of one connection, from its first request that gets past the password
on, whatever it asks and whatever its surroundings answer. -/
theorem metadata_announced (ctx : Context) (observer : Bool) (peerIp : IpAddr)
    (authNonce : Option String) (authorized : Bool) (requests : List Request) (trace : Trace)
    (responses : List Response)
    (hadmits : ∀ first ∈ requests.head?,
      { Session.new observer peerIp with authNonce, authorized }.admits ctx first)
    (h : Runs (ctx.handleConnection { Session.new observer peerIp with authNonce, authorized }
      requests) trace responses) :
    ∃ steps s' last,
      Run ctx.Turn { Session.new observer peerIp with authNonce, authorized } steps s' ∧
        Runs s'.drop last () ∧ steps.map Step.request = requests ∧
        steps.map Step.response = responses ∧
        sentEvents trace = steps.flatMap Step.events ++ sentEvents last ∧
        (∀ event ∈ sentEvents last, event.kind? = none) ∧ Announced steps := by
  obtain ⟨before, ⟨s', rs⟩, after, rfl, hserve, hdrop⟩ := runs_bind.mp h
  obtain ⟨last, _, _, rfl, hlast, hpure⟩ := runs_bind.mp hdrop
  obtain ⟨rfl, rfl⟩ := runs_pure.mp hpure
  obtain ⟨steps, hrun, rfl, rfl, hsent⟩ := turns_of_serve hserve
  refine ⟨steps, s', last, hrun, hlast, rfl, rfl, ?_, ?_, announced_of_told ?_⟩
  · rw [List.append_nil, sentEvents_append, hsent]
  · rw [Session.sentEvents_drop hlast, Session.sentEvents_ending]
    split <;> simp [Event.kind?]
  · refine told_of_turns (s := { Session.new observer peerIp with authNonce, authorized })
      Latch.follows_nil ?_ hrun
    intro first hfirst
    refine hadmits first.request ?_
    rw [List.head?_map, hfirst]
    rfl

theorem metadata_announced_once :
    ∃ steps s' last, Run openContext.Turn client steps s' ∧ Runs s'.drop last () ∧
      steps.map Step.request = [artworkRequest, announceRequest, setupRequest, artworkRequest] ∧
        steps.map Step.response =
          ((openContext.handleConnection client
            [artworkRequest, announceRequest, setupRequest, artworkRequest]).execute obliging).2 ∧
        sentEvents ((openContext.handleConnection client
            [artworkRequest, announceRequest, setupRequest, artworkRequest]).execute obliging).1 =
          steps.flatMap Step.events ++ sentEvents last ∧
        (∀ event ∈ sentEvents last, event.kind? = none) ∧ Announced steps :=
  metadata_announced openContext false client.peerIp none false
    [artworkRequest, announceRequest, setupRequest, artworkRequest] _ _
    (fun _ _ => rfl) (runs_execute obliging _)

end Context

end OpenAirplay
