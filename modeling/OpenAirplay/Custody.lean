import OpenAirplay.Exclusion
import OpenAirplay.Metadata

/-!
# What a connection is in charge of

The slot, an open session, the track anchor, a sink without a thread and the playback threads
not joined, from a connection's own past; and the order in which every connection takes them
up and gives them back.
-/

namespace OpenAirplay

open Program

set_option autoImplicit false

/-- `again` says that the session was started while it was open, `unfed` is a player without
its audio task, `channel` the flush channel of the last one. -/
structure Custody extends Hold where
  again : Bool
  anchored : Bool
  loose : Option Nat
  unjoined : List Nat
  unfed : Option Nat
  channel : Option Nat
  deriving DecidableEq

namespace Custody

def empty : Custody := ⟨⟨false, false⟩, false, false, none, [], none, none⟩

def afterCall (g : Custody) : Call Op.Res → Custody
  | ⟨.ask .compareExchange, won⟩ => { g with holds := won }
  | ⟨.act .releaseSlot, _⟩ => { g with holds := false }
  | ⟨.act (.send (.sessionStarted _ _ _)), _⟩ => { g with again := g.isOpen, isOpen := true }
  | ⟨.act (.send .sessionEnded), _⟩ => { g with isOpen := false }
  | ⟨.act (.setTrack track), _⟩ => { g with anchored := track.isSome }
  | ⟨.ask (.makeSink _ _), sink⟩ => { g with loose := some sink }
  | ⟨.ask (.spawnPlayer _ _), player⟩ =>
    { g with loose := none, unjoined := g.unjoined ++ [player], unfed := some player }
  | ⟨.ask (.spawnAudio _ _ _ _), task⟩ => { g with unfed := none, channel := some task }
  | ⟨.act (.join player), _⟩ => { g with unjoined := g.unjoined.erase player }
  | _ => g

/-- The slot is given back after everything else, and a new session waits for the threads of
the last one. -/
def permits (g : Custody) : Op → Prop
  | .ask .compareExchange => g.holds = false
  | .act .releaseSlot => g.holds = true ∧ g.loose = none ∧ g.unjoined = []
  | .act (.send (.sessionStarted _ _ _)) =>
    g.holds = true ∧ (g.isOpen = true ∨ g.unjoined = [])
  | .act (.send .sessionEnded) => g.anchored = false
  | .act (.send (.progress _ _)) | .act (.setTrack (some _)) => g.isOpen = true
  | .ask (.makeSink _ _) =>
    g.holds = true ∧ g.isOpen = true ∧ g.loose = none ∧ (g.again = true ∨ g.unjoined = [])
  | .ask (.spawnPlayer _ sink) => g.isOpen = true ∧ g.loose = some sink
  | .ask (.spawnAudio _ _ player _) => g.unfed = some player
  | .act (.sendFlush channel _) => g.channel = some channel
  | _ => True

def order : Protocol Op Op.Res Custody := ⟨permits, afterCall⟩

theorem conduct_of_permits {g : Custody} {o : Op} (h : g.permits o) :
    Hold.conduct.allowed g.toHold o := by
  cases o with
  | ask query => cases query <;> first | exact trivial | exact h
  | act effect =>
    cases effect with
    | send event => cases event <;> first | exact trivial | exact h.1
    | releaseSlot => exact h.1
    | _ => exact trivial

theorem afterCall_toHold (g : Custody) (call : Call Op.Res) :
    (g.afterCall call).toHold = Hold.conduct.after g.toHold call := by
  obtain ⟨o, r⟩ := call
  cases o with
  | ask query => cases query <;> rfl
  | act effect =>
    cases effect with
    | send event => cases event <;> rfl
    | _ => rfl

end Custody

open Custody

/-- What changes nothing in this, a position included when the session is open. -/
def Op.isPlain (isOpen : Bool) : Op → Bool
  | .ask .compareExchange | .ask (.makeSink _ _) | .ask (.spawnPlayer _ _)
  | .ask (.spawnAudio _ _ _ _) | .act .releaseSlot | .act (.setTrack _) | .act (.join _)
  | .act (.sendFlush _ _)
  | .act (.send (.sessionStarted _ _ _)) | .act (.send .sessionEnded) => false
  | .act (.send (.progress _ _)) => isOpen
  | _ => true

theorem order_plain (g : Custody) {o : Op} (r : o.Res) (h : o.isPlain g.isOpen) :
    order.allowed g o ∧ order.after g ⟨o, r⟩ = g := by
  cases o with
  | ask query => cases query <;> first | exact ⟨trivial, rfl⟩ | cases h
  | act effect =>
    cases effect with
    | send event => cases event <;> first | exact ⟨trivial, rfl⟩ | exact ⟨h, rfl⟩ | cases h
    | _ => first | exact ⟨trivial, rfl⟩ | cases h

theorem leads_plain (g : Custody) {trace : Trace} (h : Every (Op.isPlain g.isOpen) trace) :
    order.Leads g trace g := by
  induction trace with
  | nil => rfl
  | cons call trace ih =>
    obtain ⟨hcall, htrace⟩ := every_cons.mp h
    obtain ⟨o, r⟩ := call
    obtain ⟨hallowed, hafter⟩ := order_plain g r hcall
    refine ⟨hallowed, ?_⟩
    rw [hafter]
    exact ih htrace

/-- Text parameters move the anchor of an open session at most. -/
theorem leads_text (g : Custody) {trace : Trace} (h : Every (Op.isText g.isOpen) trace) :
    ∃ anchored, order.Leads g trace { g with anchored := anchored } ∧
      (g.isOpen = false → anchored = g.anchored) := by
  induction trace generalizing g with
  | nil => exact ⟨g.anchored, rfl, fun _ => rfl⟩
  | cons call trace ih =>
    obtain ⟨hcall, htrace⟩ := every_cons.mp h
    obtain ⟨o, r⟩ := call
    cases o with
    | ask query => cases hcall
    | act effect =>
      cases effect with
      | send event =>
        have hplain : Op.isPlain g.isOpen (.act (.send event)) := by
          cases event <;> first | exact hcall | rfl
        obtain ⟨hallowed, hafter⟩ := order_plain g r hplain
        obtain ⟨anchored, hleads, hsame⟩ := ih g htrace
        refine ⟨anchored, ⟨hallowed, ?_⟩, hsame⟩
        rwa [hafter]
      | setTrack track =>
        cases track with
        | none => cases hcall
        | some track =>
          have hopen : g.isOpen = true := hcall
          obtain ⟨anchored, hleads, _⟩ := ih { g with anchored := true } htrace
          refine ⟨anchored, ⟨hopen, hleads⟩, fun hclosed => ?_⟩
          rw [hopen] at hclosed
          cases hclosed
      | _ => cases hcall

theorem plain_sends {events : List Event} (h : ∀ event ∈ events, event.isLifecycle = false) :
    Every (Op.isPlain true) (events.map fun event => did (.send event)) := by
  apply every_map.mpr
  intro event hevent
  have hother := h event hevent
  cases event <;> first | rfl | cases hother

theorem plain_abort (isOpen : Bool) (tasks : List Nat) :
    Every (Op.isPlain isOpen) (tasks.map fun task => did (.abort task)) := by
  apply every_map.mpr
  intro task _
  rfl

theorem plain_flushClose (isOpen : Bool) (channel : Option Nat) :
    Every (Op.isPlain isOpen) (flushClose channel) := by
  cases channel with
  | none => exact every_nil _
  | some channel => exact every_cons.mpr ⟨rfl, every_nil _⟩

theorem leads_playerDrop (g : Custody) (player : Option Nat) :
    order.Leads g (playerDrop player) { g with unjoined := g.unjoined.diff player.toList } := by
  cases player with
  | none => rfl
  | some player =>
    have hdiff : g.unjoined.diff (some player).toList = g.unjoined.erase player := by simp
    rw [hdiff]
    exact ⟨trivial, trivial, trivial, rfl⟩

namespace Session

/-- The custody of a session between two requests. -/
structure Fits (s : Session) (g : Custody) : Prop where
  holds : g.holds = s.slotGuard
  isOpen : g.isOpen = s.streaming
  unjoined : g.unjoined = s.player.toList
  loose : g.loose = none
  unfed : g.unfed = none
  channel : ∀ a, s.flushTx = some a → g.channel = some a
  anchored : s.streaming = false → g.anchored = false
  player : s.player.isSome → s.streaming = true

theorem fits_new (observer : Bool) (peerIp : IpAddr) : (new observer peerIp).Fits .empty :=
  ⟨rfl, rfl, rfl, rfl, rfl, (fun _ h => by cases h), fun _ => rfl, fun h => by cases h⟩

variable {s s' : Session} {g : Custody} {trace : Trace}

theorem leads_taken (h : s.Fits g) : order.Leads g s.acquired { g with holds := true } := by
  unfold acquired
  have hholds := h.holds
  cases hguard : s.slotGuard with
  | true =>
    have hsame : { g with holds := true } = g := by rw [← hguard, ← hholds]
    simpa using hsame
  | false => exact ⟨hholds.trans hguard, rfl⟩

theorem leads_closing (h : g.isOpen = s.streaming) :
    order.Leads g s.ending { g with isOpen := false, anchored := false } := by
  unfold ending
  refine ⟨trivial, ?_⟩
  cases hs : s.streaming with
  | true => exact ⟨rfl, rfl⟩
  | false =>
    rw [hs] at h
    change _ = ({ g with anchored := false } : Custody)
    rw [← h]

theorem leads_release {g : Custody} {guard : Bool} (hholds : g.holds = guard)
    (hloose : g.loose = none) (hunjoined : g.unjoined = []) :
    order.Leads g (slotRelease guard) { g with holds := false } := by
  cases guard with
  | true => exact ⟨⟨hholds, hloose, hunjoined⟩, rfl⟩
  | false =>
    change _ = g
    rw [← hholds]

theorem Fits.closed (h : s.Fits g) (hs : s.streaming = false) : s.player = none := by
  cases hplayer : s.player with
  | none => rfl
  | some player =>
    have hopen := h.player (by rw [hplayer]; rfl)
    rw [hs] at hopen
    cases hopen

/-- A TEARDOWN has joined the thread and released the slot before it comes to the end. -/
theorem leads_joined (h : s.Fits g) (hrun : Runs s.teardown trace s') :
    ∃ before, trace = before ++ s.ending ∧
      order.Leads g before { g with unjoined := [], holds := false } := by
  obtain ⟨rfl, -⟩ := runs_teardown.mp hrun
  have hjoined : g.unjoined.diff s.player.toList = [] := by
    rw [h.unjoined]
    cases s.player <;> simp
  have hplayer := leads_playerDrop g s.player
  rw [hjoined] at hplayer
  refine ⟨_, rfl, leads_append.mpr ⟨_, leads_append.mpr ⟨_, leads_append.mpr
    ⟨_, leads_plain g (plain_abort _ _), hplayer⟩, leads_plain _ (plain_flushClose _ _)⟩, ?_⟩⟩
  exact leads_release h.holds h.loose rfl

theorem leads_down (h : s.Fits g) (hrun : Runs s.teardown trace s') :
    ∃ g', order.Leads g trace g' ∧ s'.Fits g' := by
  obtain ⟨before, rfl, hbefore⟩ := leads_joined h hrun
  obtain ⟨-, rfl⟩ := runs_teardown.mp hrun
  refine ⟨{ g with unjoined := [], holds := false, isOpen := false, anchored := false }, ?_,
    ⟨rfl, rfl, rfl, h.loose, h.unfed, (fun _ hnone => by cases hnone), fun _ => rfl,
      fun hnone => by cases hnone⟩⟩
  exact leads_append.mpr ⟨_, hbefore, leads_closing (s := s) h.isOpen⟩

theorem leads_dropped {u : Unit} (h : s.Fits g) (hrun : Runs s.drop trace u) :
    ∃ g', order.Leads g trace g' := by
  rw [runs_drop.mp hrun]
  have hjoined : g.unjoined.diff s.player.toList = [] := by
    rw [h.unjoined]
    cases s.player <;> simp
  have hplayer := leads_playerDrop { g with isOpen := false, anchored := false } s.player
  rw [hjoined] at hplayer
  refine ⟨_, leads_append.mpr ⟨_, leads_append.mpr ⟨_, leads_append.mpr ⟨_, leads_append.mpr
    ⟨_, leads_plain g (plain_abort _ _), leads_closing h.isOpen⟩, hplayer⟩,
    leads_plain _ (plain_flushClose _ _)⟩, leads_release h.holds h.loose rfl⟩⟩

theorem leads_begun {params : Audio.StreamParams} {ip : IpAddr} {ports : Ports}
    (h : s.Fits g) (hlatched : s.LatchesOther) (hst : Started s params ip ports trace s') :
    ∃ g', order.Leads g trace g' ∧ s'.Fits g' := by
  obtain ⟨opening, rfl, sink, player, audio, control, timing, _, _, rfl, rfl⟩ := hst.opening
  have hidle : g.isOpen = true ∨ g.unjoined = [] := by
    cases hs : s.streaming with
    | true => exact .inl (h.isOpen.trans hs)
    | false => exact .inr (by rw [h.unjoined, h.closed hs]; rfl)
  let opened : Custody := { g with holds := true, again := g.isOpen, isOpen := true }
  let spawned : Custody :=
    { opened with unjoined := g.unjoined ++ [player], unfed := some player, loose := none }
  have hjoined : spawned.unjoined.diff s.player.toList = [player] := by
    change (g.unjoined ++ [player]).diff s.player.toList = [player]
    rw [h.unjoined]
    cases s.player <;> simp
  have hplayer := leads_playerDrop spawned s.player
  rw [hjoined] at hplayer
  refine ⟨{ opened with
      unjoined := [player]
      unfed := none
      loose := none
      channel := some audio }, ?_,
    ⟨rfl, rfl, rfl, rfl, rfl, fun _ heq => heq, (fun hs => by cases hs), fun _ => rfl⟩⟩
  simp only [List.append_assoc, List.cons_append, List.nil_append]
  refine leads_append.mpr ⟨_, leads_taken h, trivial, ⟨rfl, hidle⟩, ?_⟩
  refine leads_append.mpr ⟨opened, leads_plain opened (plain_sends hlatched), ?_⟩
  refine ⟨⟨rfl, rfl, h.loose, hidle⟩, ⟨rfl, rfl⟩, ?_⟩
  refine leads_append.mpr ⟨_, hplayer, ?_⟩
  refine leads_append.mpr ⟨_, leads_plain _ (plain_flushClose _ _), ?_⟩
  exact ⟨rfl, trivial, trivial, rfl⟩

theorem Fits.keep (h : s.Fits g) (hguard : s'.slotGuard = s.slotGuard)
    (hstreaming : s'.streaming = s.streaming) (hplayer : s'.player = s.player)
    (hflush : s'.flushTx = s.flushTx) : s'.Fits g where
  holds := h.holds.trans hguard.symm
  isOpen := h.isOpen.trans hstreaming.symm
  unjoined := by rw [h.unjoined, hplayer]
  loose := h.loose
  unfed := h.unfed
  channel a ha := h.channel a (hflush ▸ ha)
  anchored hs := h.anchored (hstreaming ▸ hs)
  player hs := by
    rw [hstreaming]
    exact h.player (hplayer ▸ hs)

theorem leads_setting {request : Request} {localIp : IpAddr} {response : Response}
    (h : s.Fits g) (hlatched : s.LatchesOther)
    (hrun : Runs (s.handleSetup request localIp) trace (s', response)) :
    ∃ g', order.Leads g trace g' ∧ s'.Fits g' := by
  have htaken : ({ s with slotGuard := true } : Session).Fits { g with holds := true } :=
    ⟨rfl, h.isOpen, h.unjoined, h.loose, h.unfed, h.channel, h.anchored, h.player⟩
  rcases setup_cases hrun with ⟨_, rfl, rfl, _⟩ | ⟨_, hfree, rfl, rfl, _⟩ |
    ⟨_, _, rfl, ⟨_, rfl⟩ | ⟨_, rfl⟩⟩ | ⟨params, ports, _, _, _, hst⟩
  · exact ⟨g, rfl, h⟩
  · refine ⟨{ g with holds := false }, ⟨h.holds.trans hfree, rfl⟩, ?_⟩
    exact ⟨hfree.symm, h.isOpen, h.unjoined, h.loose, h.unfed, h.channel, h.anchored, h.player⟩
  · exact ⟨_, leads_taken h, htaken⟩
  · exact ⟨_, leads_append.mpr ⟨_, leads_taken h, trivial, rfl⟩, htaken⟩
  · exact leads_begun h hlatched hst

theorem leads_flushing {request : Request} {u : Unit} (h : s.Fits g)
    (hrun : Runs (s.flush request) trace u) : order.Leads g trace g := by
  simp only [flush] at hrun
  split at hrun
  · obtain rfl := runs_act.mp (runs_pure_bind.mp hrun)
    exact ⟨trivial, rfl⟩
  · rename_i channel hchannel
    rw [runs_act_bind] at hrun
    obtain ⟨rest, rfl, hrun⟩ := hrun
    obtain rfl := runs_act.mp hrun
    exact ⟨h.channel channel hchannel, trivial, rfl⟩

theorem leads_sessionEvent {event : Event} (h : s.Fits g) (hkind : event.kind?.isSome)
    (hrun : Runs (s.sendSessionEvent event) trace s') :
    order.Leads g trace g ∧ s'.Fits g := by
  have hplain : Op.isPlain g.isOpen (.act (.send event)) := by
    cases event <;> first | rfl | cases hkind
  unfold sendSessionEvent at hrun
  split at hrun
  · simp only [runs_act_bind, runs_pure] at hrun
    obtain ⟨rest, rfl, rfl, rfl⟩ := hrun
    exact ⟨leads_plain g (every_cons.mpr ⟨hplain, every_nil _⟩), h⟩
  · split at hrun <;> obtain ⟨rfl, rfl⟩ := runs_pure.mp hrun
    · exact ⟨rfl, h.keep rfl rfl rfl rfl⟩
    · exact ⟨rfl, h.keep rfl rfl rfl rfl⟩

theorem leads_parameter {crates : Crates} {contentType : Option String} {body : Bytes}
    (h : s.Fits g) (hrun : Runs (s.setParameter crates contentType body) trace s') :
    ∃ g', order.Leads g trace g' ∧ s'.Fits g' := by
  rcases parameter_cases hrun with ⟨event, hparameter, hsend⟩ | ⟨_, htext, rfl⟩
  · exact ⟨g, leads_sessionEvent h (kind_of_parameter hparameter) hsend⟩
  · rw [← h.isOpen] at htext
    obtain ⟨anchored, hleads, hsame⟩ := leads_text g htext
    refine ⟨_, hleads, h.holds, h.isOpen, h.unjoined, h.loose, h.unfed, h.channel, ?_, h.player⟩
    intro hs
    exact (hsame (h.isOpen.trans hs)).trans (h.anchored hs)

theorem leads_route {ctx : Context} {request : Request} {response : Response} (h : s.Fits g)
    (hlatched : s.LatchesOther) (hrun : Runs (ctx.route s request) trace (s', response)) :
    ∃ g', order.Leads g trace g' ∧ s'.Fits g' := by
  cases byMethod hrun with
  | idle _ => exact ⟨g, rfl, h⟩
  | announced _ => exact ⟨g, rfl, h.keep rfl rfl rfl rfl⟩
  | setup _ hsetup => exact leads_setting h hlatched hsetup
  | teardown _ hdown => exact leads_down h hdown
  | flush _ hflush => exact ⟨g, leads_flushing h hflush, h⟩
  | parameter _ hset => exact leads_parameter h hset

theorem leads_request {ctx : Context} {request : Request} {response : Response} (h : s.Fits g)
    (hlatched : s.LatchesOther) (hrun : Runs (ctx.dispatch s request) trace (s', response)) :
    ∃ g', order.Leads g trace g' ∧ s'.Fits g' := by
  by_cases hadmits : s.admits ctx request
  · obtain ⟨routed, _, hroute⟩ := runs_dispatch_of_admits hadmits hrun
    exact leads_route (s := { s with authorized := true }) (h.keep rfl rfl rfl rfl) hlatched hroute
  · obtain ⟨nonce, _, hch⟩ := runs_dispatch_of_not_admits hadmits hrun
    obtain rfl := hch.nonce_of_session
    refine ⟨g, ?_, h.keep rfl rfl rfl rfl⟩
    rcases hch.issued with ⟨_, rfl⟩ | ⟨_, bytes, _, rfl⟩
    · rfl
    · exact ⟨trivial, rfl⟩

end Session

namespace Context

theorem leads_requests {ctx : Context} {s s' : Session} {g : Custody} {requests : List Request}
    {trace : Trace} {responses : List Response} (h : s.Fits g) (hlatched : s.LatchesOther)
    (hrun : Runs (ctx.serve s requests) trace (s', responses)) :
    ∃ g', order.Leads g trace g' ∧ s'.Fits g' := by
  induction requests generalizing s g trace responses with
  | nil =>
    obtain ⟨rfl, heq⟩ := runs_pure.mp hrun
    obtain ⟨rfl, rfl⟩ := Prod.mk.inj heq
    exact ⟨g, rfl, h⟩
  | cons request requests ih =>
    obtain ⟨part, s₁, response, rest, responses', rfl, hdispatch, hserve, rfl⟩ :=
      runs_serve_cons.mp hrun
    obtain ⟨hlatched₁, _⟩ := Session.sessionOpen_dispatch hlatched hdispatch
    obtain ⟨g₁, hfirst, hfits⟩ := Session.leads_request h hlatched hdispatch
    obtain ⟨g', hrest, hfits'⟩ := ih hfits hlatched₁ hserve
    exact ⟨g', leads_append.mpr ⟨g₁, hfirst, hrest⟩, hfits'⟩

/-- Every connection keeps to the order, however its surroundings answer. -/
theorem obeys_order (ctx : Context) (observer : Bool) (peerIp : IpAddr)
    (requests : List Request) :
    Obeys order (ctx.handleConnection (.new observer peerIp) requests) (fun _ _ => True)
      .empty := by
  refine obeys_of_runs ?_
  intro trace responses h
  have hfresh : (Session.new observer peerIp).LatchesOther := by
    simp [Session.LatchesOther, Session.latched, Session.new]
  obtain ⟨before, ⟨s', rs⟩, after, rfl, hserve, hdrop⟩ := runs_bind.mp h
  obtain ⟨ended, _, _, rfl, hended, hpure⟩ := runs_bind.mp hdrop
  obtain ⟨rfl, rfl⟩ := runs_pure.mp hpure
  rw [List.append_nil]
  obtain ⟨g', hleads, hfits⟩ := leads_requests (Session.fits_new observer peerIp) hfresh hserve
  obtain ⟨g'', hrest⟩ := Session.leads_dropped hfits hended
  exact ⟨g'', leads_append.mpr ⟨g', hleads, hrest⟩, trivial⟩

end Context

end OpenAirplay
