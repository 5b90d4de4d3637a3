import OpenAirplay.Lifecycle
import OpenAirplay.Slot

/-!
# One session at a time

All connections of a receiver at once, in any interleaving of what they do: who holds the
slot, and who has reported a session that has not ended.
-/

namespace OpenAirplay

open Program Ownership

set_option autoImplicit false

/-- A connection's own past: whether it holds the slot and whether its session is open. -/
structure Hold where
  holds : Bool
  isOpen : Bool
  deriving DecidableEq

namespace Hold

def afterCall (g : Hold) : Call Op.Res → Hold
  | ⟨.ask .compareExchange, won⟩ => { g with holds := won }
  | ⟨.act .releaseSlot, _⟩ => { g with holds := false }
  | ⟨.act (.send (.sessionStarted _ _ _)), _⟩ => { g with isOpen := true }
  | ⟨.act (.send .sessionEnded), _⟩ => { g with isOpen := false }
  | _ => g

/-- A session is reported only by a connection that holds the slot. -/
def permits (g : Hold) : Op → Prop
  | .ask .compareExchange => g.holds = false
  | .act .releaseSlot => g.holds = true
  | .act (.send (.sessionStarted _ _ _)) => g.holds = true
  | _ => True

def conduct : Protocol Op Op.Res Hold := ⟨permits, afterCall⟩

end Hold

open Hold

def Op.isNeutral : Op → Bool
  | .ask .compareExchange | .act .releaseSlot => false
  | .act (.send event) => !event.isLifecycle
  | _ => true

theorem conduct_neutral (g : Hold) {o : Op} (r : o.Res) (h : o.isNeutral) :
    conduct.allowed g o ∧ conduct.after g ⟨o, r⟩ = g := by
  cases o with
  | ask query => cases query <;> first | exact ⟨trivial, rfl⟩ | cases h
  | act effect =>
    cases effect with
    | send event => cases event <;> first | exact ⟨trivial, rfl⟩ | cases h
    | releaseSlot => cases h
    | _ => exact ⟨trivial, rfl⟩

theorem leads_neutral (g : Hold) {trace : Trace} (h : Every Op.isNeutral trace) :
    conduct.Leads g trace g := by
  induction trace with
  | nil => rfl
  | cons call trace ih =>
    obtain ⟨hcall, htrace⟩ := every_cons.mp h
    obtain ⟨o, r⟩ := call
    obtain ⟨hallowed, hafter⟩ := conduct_neutral g r hcall
    refine ⟨hallowed, ?_⟩
    rw [hafter]
    exact ih htrace

theorem isNeutral_of_isReport (o : Op) (h : o.isReport) : o.isNeutral := by
  cases o with
  | ask query => cases h
  | act effect => cases effect <;> first | rfl | exact h

theorem neutral_of_cleanup {trace : Trace} (h : Every Op.isCleanup trace) :
    Every Op.isNeutral trace := by
  apply h.mono
  intro o ho
  cases o with
  | ask query => cases ho
  | act effect => cases effect <;> first | rfl | cases ho

namespace Session

def hold (s : Session) : Hold := ⟨s.slotGuard, s.streaming⟩

theorem leads_slotRelease {guard : Bool} (isOpen : Bool) :
    conduct.Leads ⟨guard, isOpen⟩ (slotRelease guard) ⟨false, isOpen⟩ := by
  cases guard
  · rfl
  · exact ⟨rfl, rfl⟩

theorem leads_ending {s : Session} (holds : Bool) :
    conduct.Leads ⟨holds, s.streaming⟩ s.ending ⟨holds, false⟩ := by
  unfold ending
  refine ⟨trivial, ?_⟩
  cases s.streaming
  · rfl
  · exact ⟨trivial, rfl⟩

theorem leads_acquired (s : Session) :
    conduct.Leads s.hold s.acquired ⟨true, s.streaming⟩ := by
  unfold acquired hold
  cases s.slotGuard
  · exact ⟨rfl, rfl⟩
  · rfl

theorem leads_teardown {s s' : Session} {trace : Trace} (h : Runs s.teardown trace s') :
    conduct.Leads s.hold trace s'.hold := by
  obtain ⟨rfl, rfl⟩ := runs_teardown.mp h
  have hcleanup : Every Op.isNeutral ((s.tasks.map fun task => did (.abort task)) ++
      playerDrop s.player ++ flushClose s.flushTx) := by
    apply neutral_of_cleanup
    simp only [every_append]
    exact ⟨⟨cleanup_abort _, cleanup_playerDrop _⟩, cleanup_flushClose _⟩
  rw [List.append_assoc _ (slotRelease _)]
  refine leads_append.mpr ⟨_, leads_neutral _ hcleanup, ?_⟩
  exact leads_append.mpr ⟨_, leads_slotRelease s.streaming, leads_ending false⟩

theorem leads_drop {s : Session} {trace : Trace} {u : Unit} (h : Runs s.drop trace u) :
    conduct.Leads s.hold trace ⟨false, false⟩ := by
  rw [runs_drop.mp h]
  have haborts := neutral_of_cleanup (cleanup_abort s.tasks)
  have hcleanup : Every Op.isNeutral (playerDrop s.player ++ flushClose s.flushTx) := by
    apply neutral_of_cleanup
    exact every_append.mpr ⟨cleanup_playerDrop _, cleanup_flushClose _⟩
  rw [List.append_assoc _ (playerDrop _)]
  refine leads_append.mpr ⟨⟨s.slotGuard, false⟩, ?_, leads_slotRelease false⟩
  refine leads_append.mpr ⟨_, ?_, leads_neutral _ hcleanup⟩
  exact leads_append.mpr ⟨_, leads_neutral _ haborts, leads_ending s.slotGuard⟩

theorem leads_started {s s' : Session} {params : Audio.StreamParams} {ip : IpAddr}
    {ports : Ports} {trace : Trace} (hlatched : s.LatchesOther)
    (h : Started s params ip ports trace s') : conduct.Leads s.hold trace s'.hold := by
  obtain ⟨opening, rfl, sink, player, audio, control, timing, _, _, rfl, rfl⟩ := h.opening
  have hevents : Every Op.isNeutral (s.latched.map fun event => did (.send event)) := by
    simpa [Op.isNeutral, LatchesOther] using hlatched
  simp only [List.append_assoc, List.cons_append, List.nil_append]
  refine leads_append.mpr ⟨_, s.leads_acquired, trivial, rfl, ?_⟩
  apply leads_neutral
  have hplayer := neutral_of_cleanup (cleanup_playerDrop s.player)
  have hflush := neutral_of_cleanup (cleanup_flushClose s.flushTx)
  simp only [every_append, every_cons, hplayer, hflush, hevents, every_nil]
  simp [asked, Op.isNeutral]

theorem leads_handled {ctx : Context} {s s' : Session} {request : Request} {trace : Trace}
    {status : Nat} (hlatched : s.LatchesOther) (h : Handled ctx s request trace s' status) :
    conduct.Leads s.hold trace s'.hold := by
  cases h with
  | reported hreports hsame _ =>
    rw [show s'.hold = s.hold by rw [hsame.same]; rfl]
    exact leads_neutral _ (hreports.mono isNeutral_of_isReport)
  | announced _ => rfl
  | rejected _ => rfl
  | busy _ _ hguard _ => exact ⟨hguard, by rw [hold, hguard]; rfl⟩
  | failed _ _ _ hwhy =>
    rcases hwhy with ⟨_, rfl⟩ | ⟨_, rfl⟩
    · exact s.leads_acquired
    · exact leads_append.mpr ⟨_, s.leads_acquired, trivial, rfl⟩
  | started _ _ _ _ hst => exact leads_started hlatched hst
  | closed _ hdown _ => exact leads_teardown hdown

theorem leads_dispatch {ctx : Context} {s s' : Session} {request : Request} {trace : Trace}
    {response : Response} (hlatched : s.LatchesOther)
    (h : Runs (ctx.dispatch s request) trace (s', response)) :
    conduct.Leads s.hold trace s'.hold := by
  rcases dispatch_cases h with ⟨_, hhandled⟩ | ⟨_, _, nonce, hch⟩
  · exact leads_handled (s := { s with authorized := true }) hlatched hhandled
  · obtain rfl := hch.nonce_of_session
    rcases hch.issued with ⟨_, rfl⟩ | ⟨_, bytes, _, rfl⟩
    · rfl
    · exact ⟨trivial, rfl⟩

end Session

namespace Context

theorem leads_serve {ctx : Context} {s s' : Session} {requests : List Request} {trace : Trace}
    {responses : List Response} (hlatched : s.LatchesOther)
    (h : Runs (ctx.serve s requests) trace (s', responses)) :
    conduct.Leads s.hold trace s'.hold := by
  induction requests generalizing s trace responses with
  | nil =>
    obtain ⟨rfl, heq⟩ := runs_pure.mp h
    obtain ⟨rfl, rfl⟩ := Prod.mk.inj heq
    rfl
  | cons request requests ih =>
    obtain ⟨part, s₁, response, rest, responses', rfl, hdispatch, hserve, rfl⟩ :=
      runs_serve_cons.mp h
    obtain ⟨hlatched₁, _⟩ := Session.sessionOpen_dispatch hlatched hdispatch
    exact leads_append.mpr ⟨_, Session.leads_dispatch hlatched hdispatch, ih hlatched₁ hserve⟩

instance (o : Op) : Nonempty o.Res := ⟨obliging o⟩

/-- Every connection keeps to the conduct, however its surroundings answer. -/
theorem obeys_handleConnection (ctx : Context) (observer : Bool) (peerIp : IpAddr)
    (requests : List Request) :
    Obeys conduct (ctx.handleConnection (.new observer peerIp) requests) (fun _ _ => True)
      ⟨false, false⟩ := by
  refine obeys_of_runs ?_
  intro trace responses h
  have hfresh : (Session.new observer peerIp).LatchesOther := by
    simp [Session.LatchesOther, Session.latched, Session.new]
  obtain ⟨before, ⟨s', rs⟩, after, rfl, hserve, hdrop⟩ := runs_bind.mp h
  obtain ⟨ended, _, _, rfl, hended, hpure⟩ := runs_bind.mp hdrop
  obtain ⟨rfl, rfl⟩ := runs_pure.mp hpure
  rw [List.append_nil]
  exact ⟨_, leads_append.mpr ⟨_, leads_serve hfresh hserve, Session.leads_drop hended⟩, trivial⟩

end Context

section Connections

variable {ι : Type} [DecidableEq ι]

/-- The slot answers the exchange and forgets its owner; everything else may answer anything. -/
def slotWorld (_ : ι) (slot : Bool) (o : Op) (r : o.Res) (slot' : Bool) : Prop :=
  slotAfter slot ⟨o, r⟩ = some slot'

/-- Connection `i` after what all connections have done. -/
def connection (i : ι) (trace : List (ι × Call Op.Res)) : Hold :=
  view conduct ⟨false, false⟩ i trace

/-- A connection that has given the slot back and not yet reported the end of its session. -/
def Hold.Ending (g : Hold) : Prop := g.isOpen = true ∧ g.holds = false

instance (g : Hold) : Decidable g.Ending := inferInstanceAs (Decidable (_ ∧ _))

/-- The connections of a receiver, before their first request. -/
def connections (ctx : ι → Context) (observer : Bool) (peerIp : ι → IpAddr)
    (requests : ι → List Request) : Pool ι Op Op.Res (List Response) Bool :=
  ⟨fun i => (ctx i).handleConnection (.new observer (peerIp i)) (requests i), false⟩

theorem takes_call {g : Hold} {slot slot' : Bool} {call : Call Op.Res}
    (hallowed : conduct.allowed g call.1) (hslot : slotAfter slot call = some slot') :
    Takes g.holds slot (conduct.after g call).holds slot' := by
  obtain ⟨o, r⟩ := call
  by_cases hneutral : o.isSlot
  · cases o with
    | ask query =>
      cases query <;> cases hneutral
      have hfree : g.holds = false := hallowed
      cases slot <;> cases r <;> cases hslot
      · exact .acquires hfree rfl rfl rfl
      · exact .keeps hfree.symm rfl
    | act effect =>
      cases effect <;> cases hneutral
      exact .releases hallowed rfl (Option.some.inj hslot).symm
  · have hkeep : slotAfter slot ⟨o, r⟩ = some slot := by
      have hnone : NoSlot [⟨o, r⟩] := by simpa using hneutral
      simpa [slotRun_cons] using slotRun_of_noSlot slot hnone
    rw [hkeep] at hslot
    refine .keeps ?_ (Option.some.inj hslot).symm
    cases o with
    | ask query => cases query <;> first | rfl | cases hneutral rfl
    | act effect =>
      cases effect with
      | send event => cases event <;> rfl
      | releaseSlot => cases hneutral rfl
      | _ => rfl

variable {ctx : ι → Context} {observer : Bool} {peerIp : ι → IpAddr} {requests : ι → List Request}
  {trace : List (ι × Call Op.Res)} {c : Pool ι Op Op.Res (List Response) Bool}

theorem conducted (h : PoolRun slotWorld (connections ctx observer peerIp requests) trace c)
    {c' : Pool ι Op Op.Res (List Response) Bool} {i : ι} {call : Call Op.Res}
    (hstep : PoolStep slotWorld c (i, call) c') : conduct.allowed (connection i trace) call.1 :=
  h.allowed (fun i => (ctx i).obeys_handleConnection observer (peerIp i) (requests i)) hstep

theorem connection_snoc_self (i : ι) (call : Call Op.Res) :
    connection i (trace ++ [(i, call)]) = conduct.after (connection i trace) call :=
  view_snoc_self ..

theorem connection_snoc_of_ne {i j : ι} (h : j ≠ i) (call : Call Op.Res) :
    connection j (trace ++ [(i, call)]) = connection j trace := view_snoc_of_ne _ _ h.symm ..

theorem holds_snoc (i : ι) (call : Call Op.Res) :
    (fun j => (connection j (trace ++ [(i, call)])).holds) =
      Function.update (fun j => (connection j trace).holds) i
        (conduct.after (connection i trace) call).holds := by
  funext j
  by_cases hj : j = i
  · subst hj
    rw [Function.update_self, connection_snoc_self]
  · rw [Function.update_of_ne hj, connection_snoc_of_ne hj]

/-- At every point of every interleaving the slot has at most one owner. -/
theorem owned (h : PoolRun slotWorld (connections ctx observer peerIp requests) trace c) :
    Owned (fun i => (connection i trace).holds) c.shared := by
  induction h with
  | nil => exact .start
  | snoc hrun hstep ih =>
    have hallowed := conducted hrun hstep
    cases hstep with
    | mk _ hworld =>
      rw [holds_snoc]
      exact ih.takes (takes_call hallowed hworld)

theorem started_of_opens {g : Hold} {call : Call Op.Res} (hclosed : g.isOpen = false)
    (hopen : (conduct.after g call).isOpen = true) :
    ∃ rate channels peer, call = did (.send (.sessionStarted rate channels peer)) := by
  obtain ⟨o, r⟩ := call
  cases o with
  | ask query => cases query <;> simp_all [conduct, afterCall]
  | act effect =>
    cases effect with
    | send event => cases event <;> simp_all [conduct, afterCall, did]
    | _ => simp_all [conduct, afterCall]

theorem ending_of_opens (h : PoolRun slotWorld (connections ctx observer peerIp requests) trace c)
    {c' : Pool ι Op Op.Res (List Response) Bool} {i j : ι} {call : Call Op.Res}
    (hstep : PoolStep slotWorld c (i, call) c') (hij : j ≠ i)
    (hclosed : (connection i trace).isOpen = false)
    (hopen : (connection i (trace ++ [(i, call)])).isOpen = true)
    (hother : (connection j trace).isOpen = true) :
    (∃ rate channels peer, call = did (.send (.sessionStarted rate channels peer))) ∧
      (connection j trace).Ending := by
  rw [connection_snoc_self] at hopen
  obtain ⟨rate, channels, peer, rfl⟩ := started_of_opens hclosed hopen
  have hheld : (connection i trace).holds = true := conducted h hstep
  exact ⟨⟨rate, channels, peer, rfl⟩, hother, (owned h).others hheld hij⟩

/-- At most one session is ever open, exactly when none is started while another connection
has given the slot back and not yet reported its end. -/
theorem one_session_open_iff (ctx : ι → Context) (observer : Bool) (peerIp : ι → IpAddr)
    (requests : ι → List Request) (trace : List (ι × Call Op.Res))
    (c : Pool ι Op Op.Res (List Response) Bool)
    (h : PoolRun slotWorld (connections ctx observer peerIp requests) trace c) :
    (∀ pre, pre <+: trace → ∀ i j, (connection i pre).isOpen = true →
        (connection j pre).isOpen = true → i = j) ↔
      ∀ pre i rate channels peer,
        pre ++ [(i, did (.send (.sessionStarted rate channels peer)))] <+: trace →
          ∀ j, j ≠ i → ¬(connection j pre).Ending := by
  constructor
  · intro hone pre i rate channels peer hpre j hj hending
    have hi : (connection i (pre ++ [(i, did (.send (.sessionStarted rate channels peer)))])).isOpen =
        true := by
      rw [connection_snoc_self]
      rfl
    refine hj (hone _ hpre j i ?_ hi)
    rw [connection_snoc_of_ne hj]
    exact hending.1
  · intro hstarts
    induction h with
    | nil =>
      intro pre hpre i j hi
      rw [List.prefix_nil.mp hpre] at hi
      cases hi
    | @snoc trace c c' step hrun hstep ih =>
      have hone := ih fun pre i rate channels peer hpre =>
        hstarts pre i rate channels peer (hpre.trans (List.prefix_append _ _))
      obtain ⟨k, call⟩ := step
      have halone : ∀ j, j ≠ k → (connection k (trace ++ [(k, call)])).isOpen = true →
          (connection j trace).isOpen ≠ true := by
        intro j hj hopen hother
        cases hwas : (connection k trace).isOpen with
        | true => exact hj (hone trace List.prefix_rfl j k hother hwas)
        | false =>
          obtain ⟨⟨rate, channels, peer, rfl⟩, hending⟩ :=
            ending_of_opens hrun hstep hj hwas hopen hother
          exact hstarts trace k rate channels peer List.prefix_rfl j hj hending
      intro pre hpre i j hi hj
      rcases List.prefix_concat_iff.mp hpre with rfl | hpre
      · by_cases hik : i = k
        · by_cases hjk : j = k
          · rw [hik, hjk]
          · rw [connection_snoc_of_ne hjk] at hj
            exact absurd hj (halone j hjk (hik ▸ hi))
        · rw [connection_snoc_of_ne hik] at hi
          by_cases hjk : j = k
          · exact absurd hi (halone i hik (hjk ▸ hj))
          · rw [connection_snoc_of_ne hjk] at hj
            exact hone trace List.prefix_rfl i j hi hj
      · exact hone pre hpre i j hi hj

end Connections

def obligingSlot (_ : Bool) (slot : Bool) (o : Op) : o.Res × Bool :=
  (obligingWith slot o, (slotAfter slot ⟨o, obligingWith slot o⟩).getD slot)

/-- Two clients: the first sets up and tears down, the second sets up. -/
def rivals : Pool Bool Op Op.Res (List Response) Bool :=
  connections (fun _ => openContext) false (fun _ => client.peerIp) fun second =>
    if second then [announceRequest, setupRequest]
    else [announceRequest, setupRequest, teardownRequest]

theorem play_rivals (schedule : List Bool) :
    PoolRun slotWorld rivals (rivals.play obligingSlot schedule).2
      (rivals.play obligingSlot schedule).1 := by
  refine Pool.play_run ?_ rivals schedule
  intro i slot o
  obtain ⟨slot', hslot⟩ := Option.isSome_iff_exists.mp (slotAfter_obligingWith slot o)
  simp [slotWorld, obligingSlot, hslot]

/-- The second client gets as far as its start between the release and the end. -/
def overtaking : List Bool := List.replicate 16 false ++ List.replicate 3 true

/-- The second client takes the slot as soon as it is given back, and gets as far as its start
when the first one has reported its end. -/
def handingOver : List Bool :=
  List.replicate 16 false ++ List.replicate 2 true ++ List.replicate 3 false ++
    List.replicate 6 true

/-- Another connection than `j` starts its session. -/
def startsBeside (j : Bool) : Bool × Call Op.Res → Bool
  | (i, ⟨.act (.send (.sessionStarted _ _ _)), _⟩) => i != j
  | _ => false

theorem one_session_open_handover :
    (connection true (rivals.play obligingSlot handingOver).2).isOpen = true ∧
      ∀ pre, pre <+: (rivals.play obligingSlot handingOver).2 → ∀ i j,
        (connection i pre).isOpen = true → (connection j pre).isOpen = true → i = j := by
  refine ⟨by decide +kernel, (one_session_open_iff (fun _ => openContext) false
    (fun _ => client.peerIp) _ _ _ (play_rivals handingOver)).mpr ?_⟩
  intro pre i rate channels peer hpre j hj
  have hstarts : ∀ n < (rivals.play obligingSlot handingOver).2.length, ∀ j : Bool,
      (rivals.play obligingSlot handingOver).2[n]?.any (startsBeside j) = true →
        ¬(connection j ((rivals.play obligingSlot handingOver).2.take n)).Ending := by
    decide +kernel
  obtain ⟨post, hsplit⟩ := hpre
  rw [List.append_assoc] at hsplit
  have htake : (rivals.play obligingSlot handingOver).2.take pre.length = pre := by
    rw [← hsplit, List.take_left]
  have hget : (rivals.play obligingSlot handingOver).2[pre.length]? =
      some (i, did (.send (.sessionStarted rate channels peer))) := by
    rw [← hsplit, List.getElem?_append_right (le_refl _), Nat.sub_self]
    rfl
  have hlt := (List.getElem?_eq_some_iff.mp hget).1
  refine htake ▸ hstarts pre.length hlt j ?_
  rw [hget]
  exact bne_iff_ne.mpr hj.symm

/-- A SETUP that finds the slot just given back reports its start before the other's end. -/
theorem two_sessions_open :
    PoolRun slotWorld rivals (rivals.play obligingSlot overtaking).2
        (rivals.play obligingSlot overtaking).1 ∧
      (connection false (rivals.play obligingSlot overtaking).2).isOpen = true ∧
      (connection true (rivals.play obligingSlot overtaking).2).isOpen = true :=
  ⟨play_rivals overtaking, by decide +kernel, by decide +kernel⟩

end OpenAirplay
