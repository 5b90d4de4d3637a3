import OpenAirplay.Metadata
import OpenAirplay.Positions

/-!
# The sample rate of a stream

A session is started with one sample rate, and its playback thread keeps it. A progress line
is converted with the rate announced last, which need not be the same.
-/

namespace OpenAirplay

open Program Transitions Text

set_option autoImplicit false

def Event.isProgress : Event → Bool
  | .progress _ _ => true
  | _ => false

/-- The rate of the session that is streaming after these events. -/
def rateFrom (rate : Option U32) (events : List Event) : Option U32 :=
  events.foldl (fun rate event =>
    match event with
    | .sessionStarted started _ _ => some started
    | .sessionEnded => none
    | _ => rate) rate

def sessionRate (steps : List Step) : Option U32 := rateFrom none (steps.flatMap Step.events)

/-- The rate in the body of an ANNOUNCE. -/
def Request.rate? (request : Request) : Option U32 :=
  ((Sdp.parse (fromUtf8Lossy request.body)).fmtp.bind AlacConfig.parse).map AlacConfig.sampleRate

def Step.announced? (step : Step) : Option U32 :=
  if step.request.method = "ANNOUNCE" ∧ step.response.status = 200 then step.request.rate?
  else none

/-- The rate of the latest ANNOUNCE that was accepted. -/
def announcedRate (steps : List Step) : Option U32 := steps.reverse.findSome? Step.announced?

/-- What a line of text parameters says of the position. -/
def positionOf (line : String) : Option ProgressLine :=
  match stripPrefix line "volume:" with
  | some _ => none
  | none => (stripPrefix line "progress:").bind fun v => ProgressLine.parse (trim v)

def isTextType (contentType : Option String) : Bool :=
  match contentType.map fun ct => trim ((split ct ';').headD ct) with
  | none => true
  | some mediaType => !eqIgnoreAsciiCase mediaType dmapContentType && !Session.isImage mediaType

def positionsOf (contentType : Option String) (body : Bytes) : List ProgressLine :=
  if isTextType contentType then
    (lines (fromUtf8Lossy body)).filterMap fun line => positionOf (trim line)
  else []

/-- The progress lines of an accepted `SET_PARAMETER`. -/
def Step.positions (step : Step) : List ProgressLine :=
  if step.request.method = "SET_PARAMETER" ∧ step.response.status = 200 then
    positionsOf (step.request.headers.get "Content-Type") step.request.body
  else []

/-! ## The folds -/

theorem rateFrom_append (rate : Option U32) (events more : List Event) :
    rateFrom rate (events ++ more) = rateFrom (rateFrom rate events) more := by
  simp [rateFrom, List.foldl_append]

theorem rateFrom_other (rate : Option U32) {events : List Event}
    (h : ∀ event ∈ events, event.isLifecycle = false) : rateFrom rate events = rate := by
  induction events with
  | nil => rfl
  | cons event events ih =>
    have hrest := ih fun e he => h e (List.mem_cons_of_mem event he)
    have hevent := h event List.mem_cons_self
    cases event <;> first | exact hrest | cases hevent

theorem sessionRate_snoc (steps : List Step) (step : Step) :
    sessionRate (steps ++ [step]) = rateFrom (sessionRate steps) step.events := by
  simp [sessionRate, rateFrom_append]

theorem announcedRate_snoc (steps : List Step) (step : Step) :
    announcedRate (steps ++ [step]) = step.announced?.or (announcedRate steps) := by
  rw [announcedRate, List.reverse_append, List.reverse_singleton, List.singleton_append,
    List.findSome?_cons]
  cases step.announced? <;> rfl

theorem framesToDuration_eq_iff {frames rate rate' : U32} :
    framesToDuration frames rate = framesToDuration frames rate' ↔ frames = 0 ∨ rate = rate' := by
  constructor
  · intro heq
    rw [or_iff_not_imp_left]
    intro hframes
    have hnonzero : ∀ {r : U32}, r ≠ 0 → framesToDuration frames r ≠ 0 := by
      intro r hr
      rw [framesToDuration_of_ne hr]
      exact div_ne_zero (Nat.cast_ne_zero.mpr (toNat_ne_zero hframes))
        (Nat.cast_ne_zero.mpr (toNat_ne_zero hr))
    by_cases hrate : rate = 0
    · subst hrate
      by_contra hne
      exact hnonzero (Ne.symm hne) heq.symm
    · by_cases hrate' : rate' = 0
      · subst hrate'
        exact absurd heq (hnonzero hrate)
      · have hf : (frames.toNat : ℚ) ≠ 0 := Nat.cast_ne_zero.mpr (toNat_ne_zero hframes)
        rw [framesToDuration_of_ne hrate, framesToDuration_of_ne hrate', div_eq_mul_inv,
          div_eq_mul_inv, mul_right_inj' hf, inv_inj, Nat.cast_inj] at heq
        exact BitVec.eq_of_toNat_eq heq
  · rintro (rfl | rfl)
    · simp [framesToDuration]
    · rfl

theorem ProgressLine.report_eq_iff {line : ProgressLine} {rate rate' : U32} :
    line.report rate = line.report rate' ↔
      rate = rate' ∨ (line.elapsed = 0 ∧ line.length = 0) := by
  simp only [report, Event.progress.injEq, framesToDuration_eq_iff]
  tauto

/-! ## The handlers -/

namespace Session

theorem handleAnnounce_cases (crates : Crates) (s : Session) (request : Request) :
    ((s.handleAnnounce crates request).2.status ≠ 200 ∧
        (s.handleAnnounce crates request).1 = s) ∨
      ((s.handleAnnounce crates request).2.status = 200 ∧ ∃ params,
        (s.handleAnnounce crates request).1 = { s with params := some params } ∧
          request.rate? = some params.alac.sampleRate) := by
  simp only [handleAnnounce]
  split
  · exact .inl ⟨by simp, rfl⟩
  · rename_i alac halac
    have hrate : request.rate? = some alac.sampleRate := by rw [Request.rate?, halac]; rfl
    split
    · exact .inr ⟨rfl, _, rfl, hrate⟩
    · split
      · exact .inr ⟨rfl, _, rfl, hrate⟩
      · exact .inl ⟨by simp, rfl⟩
    · exact .inl ⟨by simp, rfl⟩

/-- One line of a text body. -/
theorem positions_setTextParameter {crates : Crates} {s : Session} {params : Audio.StreamParams}
    (hparams : s.params = some params) (hstreaming : s.streaming = true) {line : String}
    {trace : Trace} {u : Unit} (h : Runs (s.setTextParameter crates line) trace u) :
    (sentEvents trace).filter Event.isProgress =
      (positionOf line).toList.map fun line => line.report params.alac.sampleRate := by
  unfold setTextParameter at h
  unfold positionOf
  cases hvolume : stripPrefix line "volume:" with
  | some v =>
    simp only [hvolume] at h ⊢
    split at h
    · obtain ⟨rfl, -⟩ := runs_pure.mp h
      rfl
    · obtain rfl := runs_act.mp h
      rfl
  | none =>
    simp only [hvolume] at h ⊢
    cases hprogress : stripPrefix line "progress:" with
    | some v =>
      simp only [hprogress] at h
      rw [sentEvents_setProgress hparams h, if_pos hstreaming, Option.bind_some]
      cases hparse : ProgressLine.parse (trim v) <;> simp [ProgressLine.report, Event.isProgress]
    | none =>
      simp only [hprogress] at h
      obtain ⟨rfl, -⟩ := runs_pure.mp h
      rfl

theorem positions_setTextLines {crates : Crates} {s : Session} {params : Audio.StreamParams}
    (hparams : s.params = some params) (hstreaming : s.streaming = true) {text : List String}
    {trace : Trace} {u : Unit} (h : Runs (s.setTextLines crates text) trace u) :
    (sentEvents trace).filter Event.isProgress =
      (text.filterMap fun line => positionOf (trim line)).map fun line =>
        line.report params.alac.sampleRate := by
  induction text generalizing trace with
  | nil =>
    obtain ⟨rfl, -⟩ := runs_pure.mp h
    rfl
  | cons line text ih =>
    rw [setTextLines, runs_bind] at h
    obtain ⟨before, _, after, rfl, hline, hrest⟩ := h
    have hfirst := positions_setTextParameter hparams hstreaming hline
    rw [sentEvents_append, List.filter_append, hfirst, ih hrest, List.filterMap_cons]
    cases positionOf (trim line) <;> rfl

theorem progress_of_kind {events : List Event} (h : ∀ event ∈ events, event.kind?.isSome) :
    events.filter Event.isProgress = [] := by
  apply List.filter_eq_nil_iff.mpr
  intro event hevent
  have hkind := h event hevent
  cases event <;> simp_all [Event.isProgress, Event.kind?]

/-- Not streaming, text parameters report no position. -/
theorem progress_of_text {trace : Trace} (h : Every (Op.isText false) trace) :
    (sentEvents trace).filter Event.isProgress = [] := by
  apply List.filter_eq_nil_iff.mpr
  intro event hevent
  obtain ⟨⟨o, r⟩, hmem, hsent⟩ := List.mem_filterMap.mp hevent
  have htext := h _ hmem
  cases o with
  | ask query => cases hsent
  | act effect =>
    cases effect with
    | send e =>
      cases hsent
      cases event <;> simp_all [Event.isProgress, Op.isText]
    | _ => cases hsent

theorem positions_setTextParameters {crates : Crates} {s s' : Session} {rate : U32}
    (hrate : s.streaming = true → s.params.map (fun params => params.alac.sampleRate) = some rate)
    {body : Bytes} {trace : Trace}
    (h : Runs (s.setTextParameters crates body >>= fun _ => pure s) trace s') :
    (sentEvents trace).filter Event.isProgress =
      if s.streaming then
        ((lines (fromUtf8Lossy body)).filterMap fun line => positionOf (trim line)).map fun line =>
          line.report rate
      else [] := by
  rw [runs_bind] at h
  obtain ⟨before, _, after, rfl, hlines, hpure⟩ := h
  obtain ⟨rfl, rfl⟩ := runs_pure.mp hpure
  rw [List.append_nil]
  split
  · rename_i hstreaming
    obtain ⟨params, hparams, rfl⟩ := Option.map_eq_some_iff.mp (hrate hstreaming)
    exact positions_setTextLines hparams hstreaming hlines
  · rename_i hidle
    have htext := text_setTextLines hlines
    rw [Bool.not_eq_true _ |>.mp hidle] at htext
    exact progress_of_text htext

theorem positions_setParameter {crates : Crates} {s s' : Session} {rate : U32}
    (hrate : s.streaming = true → s.params.map (fun params => params.alac.sampleRate) = some rate)
    {contentType : Option String} {body : Bytes} {trace : Trace}
    (h : Runs (s.setParameter crates contentType body) trace s') :
    (sentEvents trace).filter Event.isProgress =
      if s.streaming then
        (positionsOf contentType body).map fun line => line.report rate
      else [] := by
  have hnone : ∀ event : Event, event.kind?.isSome → Runs (s.sendSessionEvent event) trace s' →
      (sentEvents trace).filter Event.isProgress = [] := by
    intro event hkind hrun
    rcases sendSessionEvent_cases hrun with ⟨_, hsent, _⟩ | ⟨_, rfl, _⟩
    · rw [hsent]
      exact progress_of_kind (by simpa using hkind)
    · rfl
  unfold setParameter at h
  unfold positionsOf isTextType
  generalize (contentType.map fun ct => trim ((split ct ';').headD ct)) = mediaType? at h ⊢
  cases mediaType? with
  | none =>
    rw [if_pos rfl]
    exact positions_setTextParameters hrate h
  | some mediaType =>
    by_cases hdmap : eqIgnoreAsciiCase mediaType dmapContentType = true
    · simp only [hdmap, if_true] at h ⊢
      unfold setMetadata at h
      split at h
      · obtain ⟨rfl, rfl⟩ := runs_pure.mp h
        simp
      · rw [hnone _ rfl h]
        simp
    · by_cases himage : isImage mediaType = true
      · have hartwork : Runs (s.setArtwork mediaType body) trace s' := by
          simpa [hdmap, himage] using h
        rw [hnone _ rfl hartwork]
        simp [himage]
      · simp only [hdmap, himage] at h ⊢
        rw [positions_setTextParameters hrate h]
        simp

end Session

/-! ## The two rates -/

/-- What a session holds of the rates after `steps`. -/
structure Rates (steps : List Step) (s : Session) : Prop where
  announced : s.params.map (fun params => params.alac.sampleRate) = announcedRate steps
  session : (sessionRate steps).isSome = s.streaming
  ready : s.streaming = true → s.params.isSome = true
  latched : ∀ event ∈ s.latched, event.kind?.isSome

/-- Inside a session the positions of a step are reported at the rate announced last. -/
def Reported (pre : List Step) (step : Step) : Prop :=
  ∀ rate, sessionRate pre = some rate → ∃ announced, announcedRate pre = some announced ∧
    step.events.filter Event.isProgress = step.positions.map fun line => line.report announced

section Step

variable {ctx : Context} {pre : List Step} {s s' : Session} {step : Step} {trace : Trace}
  {response : Response}

theorem rates_nil (observer : Bool) (peerIp : IpAddr) : Rates [] (.new observer peerIp) :=
  ⟨rfl, rfl, by simp [Session.new], by simp [Session.latched, Session.new]⟩

/-- Inside a session some rate has been announced. -/
theorem Rates.announcedRate_of_session (h : Rates pre s) {rate : U32}
    (hrate : sessionRate pre = some rate) :
    s.streaming = true ∧ ∃ announced, announcedRate pre = some announced := by
  have hstreaming : s.streaming = true := by rw [← h.session, hrate]; rfl
  obtain ⟨params, hparams⟩ := Option.isSome_iff_exists.mp (h.ready hstreaming)
  refine ⟨hstreaming, params.alac.sampleRate, ?_⟩
  rw [← h.announced, hparams]
  rfl

theorem reported_of_silent (h : Rates pre s) (hevents : step.events.filter Event.isProgress = [])
    (hpositions : step.positions = []) : Reported pre step := by
  intro rate hrate
  obtain ⟨-, announced, hannounced⟩ := h.announcedRate_of_session hrate
  exact ⟨announced, hannounced, by rw [hevents, hpositions]; rfl⟩

theorem Rates.quiet (h : Rates pre s) (hannounced : step.announced? = none)
    (hevents : ∀ event ∈ step.events, event.isLifecycle = false) (hparams : s'.params = s.params)
    (hstreaming : s'.streaming = s.streaming)
    (hlatched : ∀ event ∈ s'.latched, event.kind?.isSome) :
    Rates (pre ++ [step]) s' where
  announced := by rw [announcedRate_snoc, hannounced, Option.none_or, hparams, h.announced]
  session := by rw [sessionRate_snoc, rateFrom_other _ hevents, hstreaming, h.session]
  ready := by rw [hstreaming, hparams]; exact h.ready
  latched := hlatched

theorem positions_other (h : step.request.method ≠ "SET_PARAMETER") : step.positions = [] :=
  if_neg fun hset => h hset.1

theorem announced?_other (h : step.request.method ≠ "ANNOUNCE") : step.announced? = none :=
  if_neg fun hannounce => h hannounce.1

theorem rates_setup (h : Rates pre s) (hmethod : step.request.method = "SETUP")
    (hevents : step.events = sentEvents trace)
    (hrun : Runs (s.handleSetup step.request ctx.localIp) trace (s', response)) :
    Reported pre step ∧ Rates (pre ++ [step]) s' := by
  have hannounced : step.announced? = none := announced?_other (by simp [hmethod])
  have hpositions : step.positions = [] := positions_other (by simp [hmethod])
  have hsilent : sentEvents trace = [] → s'.params = s.params → s'.streaming = s.streaming →
      s'.latched = s.latched → Reported pre step ∧ Rates (pre ++ [step]) s' := by
    intro hnone hparams hstreaming hlatched
    refine ⟨reported_of_silent h (by rw [hevents, hnone]; rfl) hpositions, ?_⟩
    exact h.quiet hannounced (by simp [hevents, hnone]) hparams hstreaming
      (by rw [hlatched]; exact h.latched)
  rcases Session.setup_cases hrun with ⟨_, rfl, rfl, _⟩ | ⟨_, _, rfl, rfl, _⟩ |
    ⟨_, _, rfl, hwhy⟩ | ⟨params, ports, hparams, _, _, hst⟩
  · exact hsilent rfl rfl rfl rfl
  · exact hsilent rfl rfl rfl rfl
  · refine hsilent ?_ rfl rfl rfl
    rcases hwhy with ⟨_, rfl⟩ | ⟨_, rfl⟩ <;> simp [Session.sentEvents_acquired]
  · have hsent := hst.sentEvents_eq
    obtain ⟨_, _, _, _, _, _, _, _, _, _, rfl⟩ := hst.opening
    refine ⟨reported_of_silent h ?_ hpositions, ?_, ?_, fun _ => by simp [hparams], by
      simp [Session.latched]⟩
    · rw [hevents, hsent, List.filter_cons_of_neg (by simp [Event.isProgress])]
      exact Session.progress_of_kind h.latched
    · rw [announcedRate_snoc, hannounced, Option.none_or, ← h.announced]
    · rw [sessionRate_snoc, hevents, hsent]
      have hother := rateFrom_other (some params.alac.sampleRate) fun event hevent =>
        Event.lifecycle_of_kind (h.latched event hevent)
      change (rateFrom (some params.alac.sampleRate) s.latched).isSome = true
      rw [hother]
      rfl

theorem rates_announce (h : Rates pre s) (hmethod : step.request.method = "ANNOUNCE")
    (hstatus : step.response.status = (s.handleAnnounce ctx.crates step.request).2.status)
    (hevents : step.events = []) :
    Reported pre step ∧ Rates (pre ++ [step]) (s.handleAnnounce ctx.crates step.request).1 := by
  refine ⟨reported_of_silent h (by rw [hevents]; rfl) (positions_other (by simp [hmethod])), ?_⟩
  rcases Session.handleAnnounce_cases ctx.crates s step.request with
    ⟨hrefused, heq⟩ | ⟨hok, params, heq, hrate⟩
  · rw [heq]
    have hannounced : step.announced? = none := if_neg fun hboth => by
      rw [hstatus] at hboth
      exact hrefused hboth.2
    exact h.quiet hannounced (by simp [hevents]) rfl rfl h.latched
  · rw [heq]
    have hannounced : step.announced? = some params.alac.sampleRate := by
      rw [Step.announced?, if_pos ⟨hmethod, hstatus.trans hok⟩, hrate]
    refine ⟨?_, ?_, fun _ => rfl, h.latched⟩
    · rw [announcedRate_snoc, hannounced]
      rfl
    · rw [sessionRate_snoc, hevents]
      exact h.session

theorem Latch.mem_hold {l : Latch} {event e : Event}
    (h : e ∈ (l.hold event).metadata.toList ++ (l.hold event).artwork.toList) :
    e = event ∨ e ∈ l.metadata.toList ++ l.artwork.toList := by
  unfold Latch.hold at h
  split at h <;> simp only [List.mem_append, Option.mem_toList, Option.some.injEq] at h ⊢
  · exact h.symm.imp Eq.symm .inl
  · exact h.imp Eq.symm .inr

theorem rates_parameter (h : Rates pre s) (hmethod : step.request.method = "SET_PARAMETER")
    (hok : step.response.status = 200) (hevents : step.events = sentEvents trace)
    (hrun : Runs (s.setParameter ctx.crates (step.request.headers.get "Content-Type")
      step.request.body) trace s') :
    Reported pre step ∧ Rates (pre ++ [step]) s' := by
  have hpositions : step.positions =
      positionsOf (step.request.headers.get "Content-Type") step.request.body :=
    if_pos ⟨hmethod, hok⟩
  refine ⟨?_, ?_⟩
  · intro rate hrate
    obtain ⟨hstreaming, announced, hannounced⟩ := h.announcedRate_of_session hrate
    refine ⟨announced, hannounced, ?_⟩
    rw [hevents, Session.positions_setParameter (fun _ => h.announced.trans hannounced) hrun,
      if_pos hstreaming, hpositions]
  · have hother : ∀ event ∈ step.events, event.isLifecycle = false := by
      rw [hevents]
      exact (Session.runs_setParameter hrun).1.other
    have hsame := (Session.runs_setParameter hrun).2.same
    refine h.quiet (announced?_other (by simp [hmethod])) hother (by rw [hsame]) (by rw [hsame]) ?_
    rcases Session.parameter_cases hrun with ⟨event, hparameter, hsend⟩ | ⟨_, _, rfl⟩
    · rcases Session.sendSessionEvent_cases hsend with ⟨_, _, rfl⟩ | ⟨_, _, hlatch⟩
      · exact h.latched
      · intro e he
        change e ∈ s'.latch.metadata.toList ++ s'.latch.artwork.toList at he
        rw [hlatch] at he
        rcases Latch.mem_hold he with rfl | hheld
        · exact kind_of_parameter hparameter
        · exact h.latched e hheld
    · exact h.latched

theorem rates_teardown (h : Rates pre s) (hmethod : step.request.method = "TEARDOWN")
    (hevents : step.events = sentEvents trace) (hrun : Runs s.teardown trace s') :
    Reported pre step ∧ Rates (pre ++ [step]) s' := by
  rw [Session.sentEvents_teardown hrun, Session.sentEvents_ending] at hevents
  obtain ⟨-, rfl⟩ := Session.runs_teardown.mp hrun
  refine ⟨reported_of_silent h ?_ (positions_other (by simp [hmethod])), ?_, ?_, by simp,
    h.latched⟩
  · rw [hevents]
    split <;> rfl
  · rw [announcedRate_snoc, announced?_other (by simp [hmethod]), Option.none_or, ← h.announced]
  · rw [sessionRate_snoc, hevents]
    cases hs : s.streaming with
    | true => rfl
    | false => exact h.session.trans hs

theorem route_announce {request : Request} (hmethod : request.method = "ANNOUNCE") :
    ctx.route s request = pure (s.handleAnnounce ctx.crates request) := by
  simp only [Context.route, hmethod]

theorem route_parameter {request : Request} (hmethod : request.method = "SET_PARAMETER")
    (h : Runs (ctx.route s request) trace (s', response)) :
    response.status = 200 ∧
      Runs (s.setParameter ctx.crates (request.headers.get "Content-Type") request.body)
        trace s' := by
  have hroute : ctx.route s request = (do
      let s ← s.setParameter ctx.crates (request.headers.get "Content-Type") request.body
      pure (s, .ok)) := by
    unfold Context.route Session.handleOther
    rw [hmethod]
    simp only [bind_assoc, pure_bind]
    rfl
  rw [hroute, runs_bind] at h
  obtain ⟨_, _, _, rfl, hset, hpure⟩ := h
  obtain ⟨rfl, heq⟩ := runs_pure.mp hpure
  obtain ⟨rfl, rfl⟩ := Prod.mk.inj heq
  exact ⟨rfl, by simpa using hset⟩

theorem rates_route (h : Rates pre s) (hstatus : step.response.status = response.status)
    (hevents : step.events = sentEvents trace)
    (hrun : Runs (ctx.route s step.request) trace (s', response)) :
    Reported pre step ∧ Rates (pre ++ [step]) s' := by
  by_cases hannounce : step.request.method = "ANNOUNCE"
  · rw [route_announce hannounce] at hrun
    obtain ⟨rfl, heq⟩ := runs_pure.mp hrun
    obtain ⟨rfl, rfl⟩ := Prod.mk.inj heq
    exact @rates_announce ctx pre s step h hannounce hstatus hevents
  · have hannounced := announced?_other hannounce
    cases Session.byMethod hrun with
    | idle hmethod =>
      simp only [List.mem_cons, not_or] at hmethod
      exact ⟨reported_of_silent h (by rw [hevents]; rfl) (positions_other hmethod.2.2.2.1),
        h.quiet hannounced (by simp [hevents]) rfl rfl h.latched⟩
    | announced hmethod => exact absurd hmethod hannounce
    | setup hmethod hsetup => exact rates_setup h hmethod hevents hsetup
    | teardown hmethod hdown => exact rates_teardown h hmethod hevents hdown
    | flush hmethod hflush =>
      refine ⟨reported_of_silent h ?_ (positions_other (by simp [hmethod])),
        h.quiet hannounced ?_ rfl rfl h.latched⟩
      · rw [hevents, Session.sentEvents_flush hflush]
        rfl
      · rw [hevents]
        exact (Session.reports_flush hflush).other
    | parameter hmethod _ =>
      obtain ⟨hok, hset⟩ := route_parameter hmethod hrun
      exact rates_parameter h hmethod (hstatus.trans hok) hevents hset

theorem rates_turn (h : Rates pre s) (hturn : ctx.Turn s step s') :
    Reported pre step ∧ Rates (pre ++ [step]) s' := by
  obtain ⟨part, hdispatch, hevents⟩ := hturn
  by_cases hadmits : s.admits ctx step.request
  · obtain ⟨routed, hresponse, hroute⟩ := Session.runs_dispatch_of_admits hadmits hdispatch
    have hauth : Rates pre { s with authorized := true } :=
      ⟨h.announced, h.session, h.ready, h.latched⟩
    exact rates_route hauth (by simp [hresponse]) hevents hroute
  · obtain ⟨nonce, hresponse, hch⟩ := Session.runs_dispatch_of_not_admits hadmits hdispatch
    obtain rfl := hch.nonce_of_session
    have hdenied : step.response.status ≠ 200 := by simp [hresponse, Session.challenge]
    have hsilent : step.events = [] := by
      rw [hevents]
      rcases hch.issued with ⟨_, rfl⟩ | ⟨_, bytes, _, rfl⟩ <;> rfl
    refine ⟨reported_of_silent h (by rw [hsilent]; rfl) (if_neg fun hok => hdenied hok.2), ?_⟩
    exact h.quiet (if_neg fun hok => hdenied hok.2) (by simp [hsilent]) rfl rfl h.latched

theorem reported_of_turns {steps : List Step} (h : Rates pre s) (hrun : Run ctx.Turn s steps s') :
    ∀ mid step post, steps = mid ++ step :: post → Reported (pre ++ mid) step := by
  induction hrun generalizing pre with
  | nil _ => simp
  | cons hfirst _ ih =>
    obtain ⟨hreported, hrates⟩ := rates_turn h hfirst
    intro mid step post hsplit
    cases mid with
    | nil =>
      obtain ⟨rfl, -⟩ := List.cons.inj hsplit
      rw [List.append_nil]
      exact hreported
    | cons _ mid =>
      obtain ⟨rfl, hrest⟩ := List.cons.inj hsplit
      rw [← List.singleton_append, ← List.append_assoc]
      exact ih hrates mid step post hrest

end Step

/-! ## The playback thread -/

/-- A player is spawned for no other format. -/
def Op.spawnsOnly (config : AlacConfig) : Op → Bool
  | .ask (.spawnPlayer other _) => other = config
  | _ => true

theorem Session.mem_acquired {s : Session} {call : Call Op.Res} (h : call ∈ s.acquired) :
    call = asked .compareExchange true := by
  unfold acquired at h
  split at h
  · cases h
  · exact List.mem_singleton.mp h

theorem Session.spawnsOnly_acquired (config : AlacConfig) (s : Session) :
    Every (Op.spawnsOnly config) s.acquired := by
  intro call hcall
  rw [mem_acquired hcall]
  rfl

theorem Session.Started.spawnsOnly {s s' : Session} {params : Audio.StreamParams} {ip : IpAddr}
    {ports : Ports} {trace : Trace} (h : Started s params ip ports trace s') :
    Every (Op.spawnsOnly params.alac) trace := by
  obtain ⟨_, rfl, sink, player, audio, control, timing, _, _, rfl, -⟩ := h.opening
  have hcleanup : ∀ o : Op, o.isCleanup → o.spawnsOnly params.alac := by
    intro o ho
    cases o with
    | ask query => cases ho
    | act effect => rfl
  have hacquired := s.spawnsOnly_acquired params.alac
  have hlatched : Every (Op.spawnsOnly params.alac)
      (s.latched.map fun event => did (.send event)) := by simp [Op.spawnsOnly]
  have hplayer := (cleanup_playerDrop s.player).mono hcleanup
  have hflush := (cleanup_flushClose s.flushTx).mono hcleanup
  simp only [every_append, every_cons, every_nil, hacquired, hlatched, hplayer, hflush, true_and,
    and_true]
  simp [asked, did, Op.spawnsOnly]

theorem spawned_rate {ctx : Context} {s s' : Session} {request : Request} {trace : Trace}
    {response : Response} (h : Runs (ctx.dispatch s request) trace (s', response))
    {config : AlacConfig} {sink player : Nat}
    (hspawn : asked (.spawnPlayer config sink) player ∈ trace) :
    ∃ channels peer rest,
      sentEvents trace = .sessionStarted config.sampleRate channels peer :: rest := by
  rcases Session.dispatch_cases h with ⟨-, hhandled⟩ | ⟨-, -, nonce, hch⟩
  · cases hhandled with
    | reported hreports _ _ => exact absurd hspawn (hreports.not_asked rfl _)
    | announced _ => cases hspawn
    | rejected _ => cases hspawn
    | busy _ _ _ _ => simp [asked] at hspawn
    | failed _ _ _ hwhy =>
      have hacquired : asked (.spawnPlayer config sink) player ∉
          ({ s with authorized := true } : Session).acquired := by
        intro hmem
        have := Session.mem_acquired hmem
        simp [asked] at this
      rcases hwhy with ⟨-, rfl⟩ | ⟨-, rfl⟩
      · exact absurd hspawn hacquired
      · refine absurd ((List.mem_append.mp hspawn).resolve_left hacquired) ?_
        simp [asked]
    | started _ _ _ _ hst =>
      have hconfig := hst.spawnsOnly _ hspawn
      rw [of_decide_eq_true hconfig]
      exact ⟨_, _, _, hst.sentEvents_eq⟩
    | closed _ hdown _ => exact absurd hspawn (Session.not_asked_teardown hdown _ _)
  · rcases hch.issued with ⟨_, rfl⟩ | ⟨_, bytes, _, rfl⟩
    · cases hspawn
    · simp [asked] at hspawn

theorem Stepped.rate {ι : Type} {decoders : AlacConfig → Option Player.Decoder}
    {track : Option Track} {p : Nat} {t t' : Thread ι} {deed : Deed}
    (h : Stepped decoders track p t deed t') : t'.position.rate = t.position.rate := by
  cases h with
  | played _ _ =>
    unfold Player.Position.played
    split
    · rfl
    · split <;> rfl
  | _ => rfl

/-! ## The two agree -/

/-- Every progress line of a session is reported at the rate the session was started with. -/
def Converts (steps : List Step) : Prop :=
  ∀ (pre : List Step) (step : Step) (post : List Step) (rate : U32),
    steps = pre ++ step :: post → sessionRate pre = some rate →
      step.events.filter Event.isProgress = step.positions.map fun line => line.report rate

/-- That rate is still the one announced last, or the line says zero of zero. -/
def StaysAnnounced (steps : List Step) : Prop :=
  ∀ (pre : List Step) (step : Step) (post : List Step) (rate : U32),
    steps = pre ++ step :: post → sessionRate pre = some rate → ∀ line ∈ step.positions,
      announcedRate pre = some rate ∨ (line.elapsed = 0 ∧ line.length = 0)

/-- Over any requests of a connection the playback thread keeps the rate its session was
started with, and the progress lines are reported at that rate exactly when it stays the one
announced last. -/
theorem progress_rate_iff (ctx : Context) (observer : Bool) (peerIp : IpAddr) (steps : List Step)
    (s' : Session) (h : Run ctx.Turn (.new observer peerIp) steps s') (ι : Type) (owner : ι)
    (decoders : AlacConfig → Option Player.Decoder) :
    (∀ (s t : Session) (request : Request) (trace : Trace) (response : Response)
      (config : AlacConfig) (sink player : Nat),
      Runs (ctx.dispatch s request) trace (t, response) →
        asked (.spawnPlayer config sink) player ∈ trace → ∃ channels peer rest,
          sentEvents trace = .sessionStarted
            (Thread.spawn decoders owner config sink).position.rate channels peer :: rest) ∧
      (∀ (track : Option Track) (p : Nat) (t t' : Thread ι) (deed : Deed),
        Stepped decoders track p t deed t' → t'.position.rate = t.position.rate) ∧
      (Converts steps ↔ StaysAnnounced steps) := by
  refine ⟨?_, fun track p t t' deed hstep => hstep.rate, ?_⟩
  · intro s t request trace response config sink player hdispatch hspawn
    exact spawned_rate hdispatch hspawn
  · have hreported := reported_of_turns (rates_nil observer peerIp) h
    simp only [List.nil_append] at hreported
    have hsame : ∀ (pre : List Step) (step : Step) (post : List Step) (rate : U32),
        steps = pre ++ step :: post → sessionRate pre = some rate →
          (step.events.filter Event.isProgress =
              step.positions.map (fun line => line.report rate) ↔
            ∀ line ∈ step.positions, announcedRate pre = some rate ∨
              (line.elapsed = 0 ∧ line.length = 0)) := by
      intro pre step post rate hsplit hrate
      obtain ⟨announced, hannounced, hevents⟩ := hreported pre step post hsplit rate hrate
      rw [hevents, hannounced, List.map_inj_left]
      simp only [ProgressLine.report_eq_iff, Option.some.injEq]
    constructor
    · intro hconverts pre step post rate hsplit hrate
      exact (hsame pre step post rate hsplit hrate).mp (hconverts pre step post rate hsplit hrate)
    · intro hstays pre step post rate hsplit hrate
      exact (hsame pre step post rate hsplit hrate).mpr (hstays pre step post rate hsplit hrate)

/-! ## A client that announces twice -/

theorem Session.handleAnnounce_plain {crates : Crates} {request : Request} {fmtp : String}
    {alac : AlacConfig} (hsdp : Sdp.parse (fromUtf8Lossy request.body) = { fmtp := some fmtp })
    (halac : AlacConfig.parse fmtp = some alac) (s : Session) :
    s.handleAnnounce crates request = ({ s with params := some (plainParams alac) }, .ok) := by
  simp only [handleAnnounce, hsdp, Option.bind_some, halac]
  rfl

namespace Context

variable {ctx : Context} {s s' : Session} {request : Request}

theorem turn_announce {response : Response} (hmethod : request.method = "ANNOUNCE")
    (hopen : ctx.password = none)
    (h : ({ s with authorized := true } : Session).handleAnnounce ctx.crates request =
      (s', response)) :
    ctx.Turn s ⟨request, ctx.finish request response, []⟩ s' := by
  have hadmits : s.admits ctx request = true := by simp [Session.admits, hopen]
  refine ⟨[], ?_, rfl⟩
  rw [Session.dispatch_of_admits hadmits, route_announce hmethod, h]
  exact .done _

def obligedStep (ctx : Context) (s : Session) (request : Request) : Step where
  request := request
  response := ((ctx.dispatch s request).execute obliging).2.2
  events := sentEvents ((ctx.dispatch s request).execute obliging).1

theorem turn_obliged : ctx.Turn s (ctx.obligedStep s request) (ctx.obliged s request) :=
  ⟨_, runs_execute obliging _, rfl⟩

end Context

def positionRequest : Request :=
  ⟨"SET_PARAMETER", "rtsp://192.168.1.10/1", [("Content-Type", "text/parameters")],
    utf8 "progress: 1000/45100/442000\r\n"⟩

def announceCd : Request :=
  ⟨"ANNOUNCE", "rtsp://192.168.1.10/1", [],
    utf8 "a=fmtp:96 352 0 16 40 10 14 2 255 1416 0 44100\n"⟩

/-- An ANNOUNCE of a format with another rate. -/
def announceFaster : Request :=
  ⟨"ANNOUNCE", "rtsp://192.168.1.10/1", [],
    utf8 "a=fmtp:96 352 0 16 40 10 14 2 255 1416 0 48000\n"⟩

def fasterConfig : AlacConfig :=
  ⟨352, 16, 2, 48000, #v[96, 352, 0, 16, 40, 10, 14, 2, 255, 1416, 0, 48000]⟩

theorem handleAnnounce_cd (s : Session) :
    s.handleAnnounce openContext.crates announceCd =
      ({ s with params := some (plainParams cdConfig) }, .ok) :=
  @Session.handleAnnounce_plain _ _ "96 352 0 16 40 10 14 2 255 1416 0 44100" _ (by decide +kernel)
    (by decide +kernel) s

theorem handleAnnounce_faster (s : Session) :
    s.handleAnnounce openContext.crates announceFaster =
      ({ s with params := some (plainParams fasterConfig) }, .ok) :=
  @Session.handleAnnounce_plain _ _ "96 352 0 16 40 10 14 2 255 1416 0 48000" _ (by decide +kernel)
    (by decide +kernel) s

def fasterClient : Session :=
  { streamingClient with authorized := true, params := some (plainParams fasterConfig) }

def announcedTwice : List Step :=
  [⟨announceCd, openContext.finish announceCd .ok, []⟩,
    openContext.obligedStep cdClient setupRequest,
    ⟨announceFaster, openContext.finish announceFaster .ok, []⟩]

theorem announcedTwice_run :
    Run openContext.Turn client
      (announcedTwice ++ [openContext.obligedStep fasterClient positionRequest])
      (openContext.obliged fasterClient positionRequest) :=
  .cons (Context.turn_announce rfl rfl (handleAnnounce_cd _)) <|
    .cons Context.turn_obliged <|
      .cons (Context.turn_announce rfl rfl (handleAnnounce_faster _)) <|
        .single Context.turn_obliged

theorem progress_rate_once :
    Converts (announcedTwice ++ [openContext.obligedStep fasterClient positionRequest]) ↔
      StaysAnnounced (announcedTwice ++ [openContext.obligedStep fasterClient positionRequest]) :=
  (progress_rate_iff openContext false client.peerIp _ _ announcedTwice_run Unit ()
    fun _ => none).2.2

/-- The session was started at 44100 Hz; one second of it is told as 0.91875 seconds. -/
theorem reannounced_rate_diverges :
    Run openContext.Turn client
      (announcedTwice ++ [openContext.obligedStep fasterClient positionRequest])
      (openContext.obliged fasterClient positionRequest) ∧
      sessionRate announcedTwice = some 44100 ∧
      (openContext.obligedStep fasterClient positionRequest).positions =
        [⟨1000, 45100, 442000⟩] ∧
      (openContext.obligedStep fasterClient positionRequest).events =
        [.progress (147 / 160) (147 / 16)] ∧
      ¬Converts (announcedTwice ++ [openContext.obligedStep fasterClient positionRequest]) := by
  have hrate : sessionRate announcedTwice = some 44100 := by decide +kernel
  have hpositions : (openContext.obligedStep fasterClient positionRequest).positions =
      [⟨1000, 45100, 442000⟩] := by decide +kernel
  have hevents : (openContext.obligedStep fasterClient positionRequest).events =
      [.progress (147 / 160) (147 / 16)] := by decide +kernel
  refine ⟨announcedTwice_run, hrate, hpositions, hevents, ?_⟩
  intro hconverts
  have htold := hconverts announcedTwice _ [] 44100 rfl hrate
  rw [hevents, hpositions] at htold
  revert htold
  decide +kernel

end OpenAirplay
