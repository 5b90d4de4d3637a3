import OpenAirplay.Lifecycle
import OpenAirplay.Slot

/-!
# Refused requests

All connections of a receiver share one streaming slot. A refused request should leave
no trace; this module says which ones do, and what that means for the other connections.
-/

namespace OpenAirplay

open Program Ownership

set_option autoImplicit false

namespace Session

/-- A SETUP past the password that takes the slot and then fails. -/
def Leaks (ctx : Context) (s : Session) (slot : Bool) (request : Request) (trace : Trace) : Prop :=
  s.admits ctx request ∧ request.method = "SETUP" ∧ s.params.isSome ∧ s.slotGuard = false ∧
    slot = false ∧
    (clientPorts request = none ∨ asked (.bindThree (bindIp ctx.localIp)) none ∈ trace)

/-- The same session, but for the password check. -/
def SameButAuth (s s' : Session) : Prop :=
  s' = { s with authNonce := s'.authNonce, authorized := s'.authorized }

theorem handled_refused {ctx : Context} {s s' : Session} {request : Request} {trace : Trace}
    {status : Nat} {slot slot' : Bool} (h : Handled ctx s request trace s' status)
    (hslot : slotRun slot trace = some slot') (hstatus : status ≠ 200) :
    sentEvents trace = [] ∧ ((s' = s ∧ slot' = slot) ∨
      (s.slotGuard = false ∧ slot = false ∧ request.method = "SETUP" ∧ s.params.isSome ∧
        (clientPorts request = none ∨ asked (.bindThree (bindIp ctx.localIp)) none ∈ trace))) := by
  cases h with
  | reported _ _ hok => exact absurd hok hstatus
  | announced hok => exact absurd hok hstatus
  | started _ _ _ hok _ => exact absurd hok hstatus
  | closed _ _ hok => exact absurd hok hstatus
  | rejected _ => exact ⟨rfl, .inl ⟨rfl, (Option.some.inj hslot).symm⟩⟩
  | busy _ _ _ _ =>
    refine ⟨rfl, .inl ⟨rfl, ?_⟩⟩
    cases slot with
    | false => cases hslot
    | true => exact (Option.some.inj hslot).symm
  | failed hmethod hparams _ hwhy =>
    obtain ⟨rest, hrest, rfl⟩ : ∃ rest, NoSlot rest ∧ trace = s.acquired ++ rest := by
      rcases hwhy with ⟨_, rfl⟩ | ⟨_, rfl⟩
      · exact ⟨[], every_nil _, by simp⟩
      · exact ⟨_, by simp [asked, Op.isSlot], rfl⟩
    refine ⟨?_, ?_⟩
    · rcases hwhy with ⟨_, h⟩ | ⟨_, h⟩ <;> rw [h] <;> simp [sentEvents_acquired]
    · rcases takes_acquired hrest hslot with ⟨hguard, rfl⟩ | ⟨hguard, rfl, _, _⟩ | ⟨_, hno, _⟩
      · exact .inl ⟨by rw [hguard], rfl⟩
      · refine .inr ⟨hguard, rfl, hmethod, hparams, ?_⟩
        rcases hwhy with ⟨hports, _⟩ | ⟨_, h⟩
        · exact .inl hports
        · exact .inr (by simp [h])
      · cases hno

theorem Started.bound {s s' : Session} {params : Audio.StreamParams} {ip : IpAddr}
    {ports : Ports} {trace : Trace} (h : Started s params ip ports trace s') :
    asked (.bindThree ip) none ∉ trace := by
  obtain ⟨opening, rfl, sink, player, audio, control, timing, _, _, rfl, _⟩ := h.opening
  have hacquired := s.bound_not_mem_acquired ip none
  have hplayer : asked (.bindThree ip) none ∉ playerDrop s.player := by
    apply (cleanup_playerDrop s.player).not_asked
    rfl
  have hflush : asked (.bindThree ip) none ∉ flushClose s.flushTx := by
    apply (cleanup_flushClose s.flushTx).not_asked
    rfl
  unfold asked at hacquired hplayer hflush
  simp [asked, did, hacquired, hplayer, hflush]

theorem Leaks.keeps {ctx : Context} {s s' : Session} {request : Request} {trace : Trace}
    {response : Response} {slot slot' : Bool} (h : Leaks ctx s slot request trace)
    (hrun : Runs (ctx.dispatch s request) trace (s', response))
    (hslot : slotRun slot trace = some slot') : response.status ≠ 200 ∧ s'.slotGuard = true := by
  obtain ⟨hadmits, hmethod, hparams, hguard, rfl, hwhy⟩ := h
  obtain ⟨params, hparams⟩ := Option.isSome_iff_exists.mp hparams
  obtain ⟨routed, rfl, hroute⟩ := runs_dispatch_of_admits hadmits hrun
  rw [Context.finish_status]
  simp only [Context.route, hmethod, handleSetup, hparams, hguard] at hroute
  rw [if_neg (by decide), runs_ask_bind] at hroute
  obtain ⟨won, rest, rfl, hopen⟩ := hroute
  cases won with
  | false => cases hslot
  | true =>
    rcases runs_openStream rfl hopen with ⟨rfl, hstatus, _⟩ | ⟨_, hports, ports, hst⟩
    · exact ⟨fun h => hstatus (by simp [h]), rfl⟩
    · rcases hwhy with hnone | hmem
      · rw [hnone] at hports
        cases hports
      · exact absurd (by simpa [asked] using hmem) hst.bound

/-- A refused request leaves no trace exactly when it is not a SETUP that takes the slot. -/
theorem refused_iff {ctx : Context} {s s' : Session} {request : Request} {trace : Trace}
    {response : Response} {slot slot' : Bool}
    (hrun : Runs (ctx.dispatch s request) trace (s', response))
    (hslot : slotRun slot trace = some slot') :
    (response.status ≠ 200 → SameButAuth s s' ∧ slot' = slot ∧ sentEvents trace = []) ↔
      ¬Leaks ctx s slot request trace := by
  constructor
  · intro hatomic hleaks
    obtain ⟨hstatus, hkept⟩ := hleaks.keeps hrun hslot
    obtain ⟨hsame, _⟩ := hatomic hstatus
    rw [hsame] at hkept
    obtain ⟨_, _, _, hguard, _⟩ := hleaks
    rw [hguard] at hkept
    cases hkept
  · intro hno hstatus
    rcases dispatch_cases hrun with ⟨hadmits, hhandled⟩ | ⟨_, _, nonce, hch⟩
    · obtain ⟨hevents, ⟨rfl, rfl⟩ | ⟨hguard, hfree, hmethod, hparams, hwhy⟩⟩ :=
        handled_refused (s := { s with authorized := true }) hhandled hslot hstatus
      · exact ⟨rfl, rfl, hevents⟩
      · exact absurd ⟨hadmits, hmethod, hparams, hguard, hfree, hwhy⟩ hno
    · obtain rfl := hch.nonce_of_session
      rcases hch.issued with ⟨_, rfl⟩ | ⟨_, bytes, _, rfl⟩ <;>
        exact ⟨rfl, (Option.some.inj hslot).symm, rfl⟩

theorem streaming_of_guard {ctx : Context} {s s' : Session} {request : Request} {trace : Trace}
    {response : Response} {slot slot' : Bool}
    (hrun : Runs (ctx.dispatch s request) trace (s', response))
    (hslot : slotRun slot trace = some slot') (hno : ¬Leaks ctx s slot request trace)
    (hs : s.slotGuard = true → s.streaming = true) :
    s'.slotGuard = true → s'.streaming = true := by
  by_cases hstatus : response.status = 200
  · rcases dispatch_cases hrun with ⟨_, hhandled⟩ | ⟨_, hdenied, _⟩
    · cases hhandled with
      | reported _ hsame _ =>
        rw [hsame.same]
        exact hs
      | announced _ => exact hs
      | rejected hnot => exact absurd hstatus (by simp_all)
      | busy _ _ _ hnot => exact absurd hstatus (by simp_all)
      | failed _ _ hnot _ => exact absurd hstatus (by simp_all)
      | started _ _ _ _ hst =>
        obtain ⟨_, _, _, _, _, _, _, _, _, _, rfl⟩ := hst.opening
        exact fun _ => rfl
      | closed _ hdown _ =>
        obtain ⟨_, rfl⟩ := runs_teardown.mp hdown
        exact fun h => h
    · rw [hdenied] at hstatus
      cases hstatus
  · obtain ⟨hsame, _⟩ := (refused_iff hrun hslot).mpr hno hstatus
    rw [hsame]
    exact hs

end Session

/-! ## All connections of a receiver -/

/-- The open connections and the slot they share, between two requests. -/
structure Receiver (ι : Type) where
  sessions : ι → Option Session
  slot : Bool

/-- One request on one connection, with what it did. -/
structure Exchange (ι : Type) where
  before : Receiver ι
  conn : ι
  session : Session
  request : Request
  trace : Trace
  session' : Session
  slot' : Bool
  response : Response

variable {ι : Type}

namespace Exchange

/-- The connection is open and its request can run so, with the slot as it stands. -/
structure Valid (ctx : Context) (e : Exchange ι) : Prop where
  isOpen : e.before.sessions e.conn = some e.session
  run : Runs (ctx.dispatch e.session e.request) e.trace (e.session', e.response)
  slot : slotRun e.before.slot e.trace = some e.slot'

/-- A refused request changes nothing but the password check and reports nothing. -/
def Atomic (e : Exchange ι) : Prop :=
  e.response.status ≠ 200 →
    e.session.SameButAuth e.session' ∧ e.slot' = e.before.slot ∧ sentEvents e.trace = []

/-- The receiver is busy only while another connection is streaming. -/
def BusyWhileStreaming (e : Exchange ι) : Prop :=
  e.response.status = 453 →
    ∃ j s, j ≠ e.conn ∧ e.before.sessions j = some s ∧ s.streaming = true

def Leaks (ctx : Context) (e : Exchange ι) : Prop :=
  e.session.Leaks ctx e.before.slot e.request e.trace

theorem Valid.atomic_iff {ctx : Context} {e : Exchange ι} (h : e.Valid ctx) :
    e.Atomic ↔ ¬e.Leaks ctx := Session.refused_iff h.run h.slot

end Exchange

namespace Receiver

def holds (r : Receiver ι) (i : ι) : Bool := (r.sessions i).any Session.slotGuard

/-- Between requests the slot has one owner, a running session. -/
structure Sound (r : Receiver ι) : Prop where
  owned : Owned r.holds r.slot
  streaming : ∀ i s, r.sessions i = some s → s.slotGuard = true → s.streaming = true

theorem Sound.busy {ctx : Context} {e : Exchange ι} (h : e.before.Sound) (he : e.Valid ctx) :
    e.BusyWhileStreaming := by
  intro hbusy
  rcases Session.dispatch_cases he.run with ⟨_, hhandled⟩ | ⟨_, hdenied, _⟩
  · have hslot := he.slot
    rw [hbusy] at hhandled
    generalize e.trace = trace, e.session' = s' at hhandled hslot
    cases hhandled with
    | reported _ _ hok => cases hok
    | announced hok => cases hok
    | rejected hnot => simp at hnot
    | failed _ _ hnot _ => simp at hnot
    | started _ _ _ hok _ => cases hok
    | closed _ _ hok => cases hok
    | busy _ _ hguard _ =>
      have htaken : e.before.slot = true := by
        cases hr : e.before.slot with
        | true => rfl
        | false =>
          rw [hr] at hslot
          cases hslot
      obtain ⟨j, hj⟩ := h.owned.flag_iff.mp htaken
      obtain ⟨t, ht, hheld⟩ := (Option.any_eq_true _ _).mp hj
      refine ⟨j, t, ?_, ht, h.streaming j t ht hheld⟩
      rintro rfl
      rw [he.isOpen] at ht
      cases ht
      rw [show e.session.slotGuard = false from hguard] at hheld
      cases hheld
  · rw [hdenied] at hbusy
    cases hbusy

variable [DecidableEq ι]

def update (r : Receiver ι) (i : ι) (s : Option Session) (slot : Bool) : Receiver ι :=
  ⟨Function.update r.sessions i s, slot⟩

theorem holds_update (r : Receiver ι) (i : ι) (s : Option Session) (slot : Bool) :
    (r.update i s slot).holds = Function.update r.holds i (s.any Session.slotGuard) := by
  funext j
  by_cases hj : j = i
  · subst hj
    simp [holds, update]
  · simp [holds, update, Function.update_of_ne hj]

theorem Sound.update {r : Receiver ι} {i : ι} {s : Option Session} {slot : Bool} (h : r.Sound)
    (ht : Takes (r.holds i) r.slot (s.any Session.slotGuard) slot)
    (hs : ∀ s', s = some s' → s'.slotGuard = true → s'.streaming = true) :
    (r.update i s slot).Sound := by
  refine ⟨?_, ?_⟩
  · rw [holds_update]
    exact h.owned.takes ht
  · intro j t hj
    change Function.update r.sessions i s j = some t at hj
    by_cases hji : j = i
    · subst hji
      rw [Function.update_self] at hj
      exact hs t hj
    · rw [Function.update_of_ne hji] at hj
      exact h.streaming j t hj

end Receiver

variable [DecidableEq ι]

def Exchange.after (e : Exchange ι) : Receiver ι := e.before.update e.conn (some e.session') e.slot'

/-- The requests answered so far on a receiver that started with its slot free. -/
inductive Served (ctx : ι → Context) (observer : Bool) : List (Exchange ι) → Receiver ι → Prop where
  | start : Served ctx observer [] ⟨fun _ => none, false⟩
  | accept {exchanges : List (Exchange ι)} {r : Receiver ι} {i : ι} {p : IpAddr} :
    Served ctx observer exchanges r → r.sessions i = none →
      Served ctx observer exchanges (r.update i (some (.new observer p)) r.slot)
  | request {exchanges : List (Exchange ι)} {e : Exchange ι} :
    Served ctx observer exchanges e.before → e.Valid (ctx e.conn) →
      Served ctx observer (exchanges ++ [e]) e.after
  | close {exchanges : List (Exchange ι)} {r : Receiver ι} {i : ι} {s : Session} {trace : Trace}
    {slot' : Bool} :
    Served ctx observer exchanges r → r.sessions i = some s → Runs s.drop trace () →
      slotRun r.slot trace = some slot' → Served ctx observer exchanges (r.update i none slot')

namespace Served

variable {ctx : ι → Context} {observer : Bool} {exchanges : List (Exchange ι)} {r : Receiver ι}

theorem valid (h : Served ctx observer exchanges r) : ∀ e ∈ exchanges, e.Valid (ctx e.conn) := by
  induction h with
  | start => simp
  | accept _ _ ih => exact ih
  | request _ he ih =>
    intro e' he'
    rcases List.mem_append.mp he' with he' | he'
    · exact ih e' he'
    · rwa [List.mem_singleton.mp he']
  | close _ _ _ _ ih => exact ih

/-- As long as no SETUP takes the slot and then fails, the slot is a streaming connection's. -/
theorem sound (h : Served ctx observer exchanges r) (hno : ∀ e ∈ exchanges, ¬e.Leaks (ctx e.conn)) :
    r.Sound ∧ ∀ e ∈ exchanges, e.BusyWhileStreaming := by
  induction h with
  | start => exact ⟨⟨.start, by simp⟩, by simp⟩
  | @accept _ r i p _ hfree ih =>
    obtain ⟨hsound, hall⟩ := ih hno
    refine ⟨hsound.update (.keeps ?_ rfl) ?_, hall⟩
    · simp [Receiver.holds, hfree, Session.new]
    · rintro s' hs' hguard
      cases hs'
      cases hguard
  | @request exchanges e _ he ih =>
    obtain ⟨hsound, hall⟩ := ih fun e' he' => hno e' (List.mem_append_left _ he')
    have hlast : ¬e.Leaks (ctx e.conn) := hno e (List.mem_append_right _ List.mem_cons_self)
    have hholds : e.before.holds e.conn = e.session.slotGuard := by simp [Receiver.holds, he.isOpen]
    refine ⟨hsound.update ?_ ?_, ?_⟩
    · rw [hholds]
      exact Session.takes_dispatch he.run he.slot
    · intro s' hs'
      cases hs'
      exact Session.streaming_of_guard he.run he.slot hlast
        (hsound.streaming e.conn e.session he.isOpen)
    · intro e' he'
      rcases List.mem_append.mp he' with he' | he'
      · exact hall e' he'
      · rw [List.mem_singleton.mp he']
        exact hsound.busy he
  | @close _ r i s trace slot' _ hi hrun hslot ih =>
    obtain ⟨hsound, hall⟩ := ih hno
    have hholds : r.holds i = s.slotGuard := by simp [Receiver.holds, hi]
    refine ⟨hsound.update ?_ (by simp), hall⟩
    rw [hholds]
    exact Session.takes_drop hrun hslot

end Served

/-- Refused requests leave no trace, and a busy answer means that another connection is
streaming, exactly when no SETUP takes the slot and then fails. -/
theorem refusals_leave_no_trace_iff (ctx : ι → Context) (observer : Bool)
    (exchanges : List (Exchange ι)) (r : Receiver ι) (h : Served ctx observer exchanges r) :
    (∀ e ∈ exchanges, e.Atomic ∧ e.BusyWhileStreaming) ↔
      ∀ e ∈ exchanges, ¬e.Leaks (ctx e.conn) := by
  constructor
  · intro hall e he
    exact (h.valid e he).atomic_iff.mp (hall e he).1
  · intro hno e he
    exact ⟨(h.valid e he).atomic_iff.mpr (hno e he), (h.sound hno).2 e he⟩

def Receiver.exchange (ctx : Context) (r : Receiver ι) (i : ι) (request : Request) : Exchange ι :=
  let s := (r.sessions i).getD client
  let (trace, s', response) := (ctx.dispatch s request).execute (obligingWith r.slot)
  ⟨r, i, s, request, trace, s', (slotRun r.slot trace).getD r.slot, response⟩

omit [DecidableEq ι] in
theorem Receiver.exchange_valid (ctx : Context) (r : Receiver ι) (i : ι) (request : Request)
    (hopen : (r.sessions i).isSome)
    (hslot : (slotRun r.slot (r.exchange ctx i request).trace).isSome) :
    (r.exchange ctx i request).Valid ctx := by
  obtain ⟨s, hs⟩ := Option.isSome_iff_exists.mp hopen
  obtain ⟨slot, hslot⟩ := Option.isSome_iff_exists.mp hslot
  refine ⟨by simp [exchange, hs], runs_execute (obligingWith r.slot) _, ?_⟩
  change slotRun r.slot _ = some ((slotRun r.slot (r.exchange ctx i request).trace).getD r.slot)
  rw [hslot]
  rfl

def twoClients : Receiver Bool := ⟨fun _ => some client, false⟩

theorem served_twoClients : Served (fun _ => openContext) false [] twoClients := by
  have h₀ : Served (fun _ : Bool => openContext) false [] ⟨fun _ => none, false⟩ := .start
  have h₁ := h₀.accept (i := false) (p := client.peerIp) rfl
  have h₂ := h₁.accept (i := true) (p := client.peerIp) rfl
  convert h₂ using 1
  simp only [twoClients, Receiver.update]
  congr 1
  funext b
  cases b <;> rfl

def Receiver.answered : Receiver ι → List (ι × Request) → List (Exchange ι)
  | _, [] => []
  | r, (i, request) :: rest =>
    let e := r.exchange openContext i request
    e :: e.after.answered rest

/-- Every request of the schedule finds its connection open and the slot as it expects. -/
def Receiver.runnable : Receiver ι → List (ι × Request) → Bool
  | _, [] => true
  | r, (i, request) :: rest =>
    let e := r.exchange openContext i request
    (r.sessions i).isSome && (slotRun r.slot e.trace).isSome && e.after.runnable rest

theorem Served.answered {observer : Bool} {past : List (Exchange ι)} {r : Receiver ι}
    (h : Served (fun _ => openContext) observer past r) (schedule : List (ι × Request))
    (hrun : r.runnable schedule) :
    ∃ r', Served (fun _ => openContext) observer (past ++ r.answered schedule) r' := by
  induction schedule generalizing past r with
  | nil => exact ⟨r, by simpa [Receiver.answered] using h⟩
  | cons turn rest ih =>
    obtain ⟨i, request⟩ := turn
    simp only [Receiver.runnable, Bool.and_eq_true] at hrun
    obtain ⟨⟨hopen, hslot⟩, hrest⟩ := hrun
    have hvalid := r.exchange_valid openContext i request hopen hslot
    obtain ⟨r', hr'⟩ := ih (h.request hvalid) hrest
    exact ⟨r', by simpa [Receiver.answered] using hr'⟩

def bareSetupRequest : Request := ⟨"SETUP", "rtsp://192.168.1.10/1", [], []⟩

def rivalSetups : List (Bool × Request) :=
  [(false, announceRequest), (false, setupRequest), (true, announceRequest), (true, setupRequest)]

/-- The first client's SETUP has no Transport header. -/
def failedSetup : List (Bool × Request) :=
  [(false, announceRequest), (false, bareSetupRequest), (true, announceRequest),
    (true, setupRequest)]

theorem refusals_leave_no_trace_once :
    ∃ r, Served (fun _ => openContext) false (twoClients.answered rivalSetups) r ∧
      ((∀ e ∈ twoClients.answered rivalSetups, e.Atomic ∧ e.BusyWhileStreaming) ↔
        ∀ e ∈ twoClients.answered rivalSetups, ¬e.Leaks openContext) := by
  obtain ⟨r, hr⟩ := served_twoClients.answered rivalSetups (by decide +kernel)
  rw [List.nil_append] at hr
  exact ⟨r, hr, refusals_leave_no_trace_iff (fun _ => openContext) false _ r hr⟩

/-- A refused SETUP keeps the slot, and the next client finds an idle receiver busy. -/
theorem failed_setup_keeps_slot :
    ∃ r, Served (fun _ => openContext) false (twoClients.answered failedSetup) r ∧
      (¬∀ e ∈ twoClients.answered failedSetup, e.Atomic) ∧
      ¬∀ e ∈ twoClients.answered failedSetup, e.BusyWhileStreaming := by
  obtain ⟨r, hr⟩ := served_twoClients.answered failedSetup (by decide +kernel)
  rw [List.nil_append] at hr
  refine ⟨r, hr, ?_, ?_⟩
  · intro hatomic
    have hkept : ∃ e ∈ twoClients.answered failedSetup,
        e.response.status ≠ 200 ∧ e.slot' ≠ e.before.slot := by decide +kernel
    obtain ⟨e, he, hstatus, hslot⟩ := hkept
    exact hslot (hatomic e he hstatus).2.1
  · intro hbusy
    have hidle : ∃ e ∈ twoClients.answered failedSetup, e.response.status = 453 ∧
        ∀ j, (e.before.sessions j).all fun s => !s.streaming := by decide +kernel
    obtain ⟨e, he, hstatus, hidle⟩ := hidle
    obtain ⟨j, s, _, hs, hstreaming⟩ := hbusy e he hstatus
    have hj := hidle j
    simp [hs, hstreaming] at hj

end OpenAirplay
