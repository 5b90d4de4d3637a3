import OpenAirplay.Handling
import OpenAirplay.Shared.Ownership

/-!
# The slot all connections share

Only one connection streams at a time: a SETUP takes the slot, a TEARDOWN or the end of
the connection gives it back.
-/

namespace OpenAirplay

open Program Ownership

set_option autoImplicit false

/-- What a call does to the slot; nothing if the slot would not have answered so. -/
def slotAfter (slot : Bool) (call : Call Op.Res) : Option Bool :=
  match call with
  | ⟨.ask .compareExchange, won⟩ => if won = !slot then some true else none
  | ⟨.act .releaseSlot, _⟩ => some false
  | _ => some slot

def slotRun (slot : Bool) (trace : Trace) : Option Bool := trace.foldlM slotAfter slot

@[simp] theorem slotRun_nil (slot : Bool) : slotRun slot [] = some slot := rfl

@[simp] theorem slotRun_append (slot : Bool) (trace trace' : Trace) :
    slotRun slot (trace ++ trace') = (slotRun slot trace).bind fun s => slotRun s trace' := by
  simp [slotRun, List.foldlM_append]

theorem slotRun_cons (slot : Bool) (call : Call Op.Res) (trace : Trace) :
    slotRun slot (call :: trace) = (slotAfter slot call).bind fun s => slotRun s trace := rfl

def Op.isSlot : Op → Bool
  | .ask .compareExchange | .act .releaseSlot => true
  | _ => false

abbrev NoSlot (trace : Trace) : Prop := Every (fun o => !o.isSlot) trace

theorem slotRun_of_noSlot (slot : Bool) {trace : Trace} (h : NoSlot trace) :
    slotRun slot trace = some slot := by
  induction trace with
  | nil => rfl
  | cons call trace ih =>
    obtain ⟨hcall, htrace⟩ := every_cons.mp h
    have hkeep : slotAfter slot call = some slot := by
      obtain ⟨o, r⟩ := call
      cases o with
      | ask query => cases query <;> first | rfl | cases hcall
      | act effect => cases effect <;> first | rfl | cases hcall
    rw [slotRun_cons, hkeep, Option.bind_some]
    exact ih htrace

theorem isSlot_of_isReport (o : Op) (h : o.isReport) : !o.isSlot := by
  cases o with
  | ask query => cases h
  | act effect => cases effect <;> first | rfl | cases h

theorem noSlot_of_cleanup {trace : Trace} (h : Every Op.isCleanup trace) : NoSlot trace := by
  apply h.mono
  intro o ho
  cases o with
  | ask query => cases ho
  | act effect => cases effect <;> first | rfl | cases ho

namespace Session

theorem noSlot_ending (s : Session) : NoSlot s.ending := by
  unfold ending
  split <;> simp [did, Op.isSlot]

theorem slotRun_acquired {s : Session} {slot slot' : Bool}
    (h : slotRun slot s.acquired = some slot') :
    (s.slotGuard = true ∧ slot' = slot) ∨
      (s.slotGuard = false ∧ slot = false ∧ slot' = true) := by
  unfold acquired at h
  cases hs : s.slotGuard with
  | true => simp_all
  | false => cases slot <;> simp_all [slotRun_cons, slotAfter, asked]

theorem takes_ending {s : Session} {slot slot' : Bool} {before after : Trace}
    (hbefore : NoSlot before) (hafter : NoSlot after)
    (h : slotRun slot (before ++ slotRelease s.slotGuard ++ after) = some slot') :
    Takes s.slotGuard slot false slot' := by
  rw [slotRun_append, slotRun_append, slotRun_of_noSlot _ hbefore, Option.bind_some] at h
  cases hs : s.slotGuard with
  | true =>
    rw [hs, slotRelease, slotRun_cons] at h
    have hrun : slotRun false after = some slot' := h
    rw [slotRun_of_noSlot _ hafter] at hrun
    exact .releases rfl rfl (Option.some.inj hrun).symm
  | false =>
    rw [hs, slotRelease, slotRun_nil, Option.bind_some, slotRun_of_noSlot _ hafter] at h
    exact .keeps rfl (Option.some.inj h).symm

theorem takes_teardown {s s' : Session} {trace : Trace} {slot slot' : Bool}
    (h : Runs s.teardown trace s') (hslot : slotRun slot trace = some slot') :
    Takes s.slotGuard slot s'.slotGuard slot' := by
  obtain ⟨rfl, rfl⟩ := runs_teardown.mp h
  refine takes_ending ?_ s.noSlot_ending hslot
  apply noSlot_of_cleanup
  simp only [every_append]
  exact ⟨⟨cleanup_abort _, cleanup_playerDrop _⟩, cleanup_flushClose _⟩

theorem takes_drop {s : Session} {trace : Trace} {u : Unit} {slot slot' : Bool}
    (h : Runs s.drop trace u) (hslot : slotRun slot trace = some slot') :
    Takes s.slotGuard slot false slot' := by
  rw [runs_drop.mp h] at hslot
  rw [← List.append_nil (_ ++ slotRelease _)] at hslot
  refine takes_ending ?_ (every_nil _) hslot
  simp only [every_append]
  exact ⟨⟨⟨noSlot_of_cleanup (cleanup_abort _), s.noSlot_ending⟩,
    noSlot_of_cleanup (cleanup_playerDrop _)⟩, noSlot_of_cleanup (cleanup_flushClose _)⟩

theorem takes_acquired {s : Session} {slot slot' : Bool} {rest : Trace} (hrest : NoSlot rest)
    (h : slotRun slot (s.acquired ++ rest) = some slot') :
    Takes s.slotGuard slot true slot' := by
  rw [slotRun_append] at h
  obtain ⟨mid, hmid, hrun⟩ := Option.bind_eq_some_iff.mp h
  rw [slotRun_of_noSlot _ hrest] at hrun
  obtain rfl := Option.some.inj hrun
  rcases slotRun_acquired hmid with ⟨hguard, rfl⟩ | ⟨hguard, rfl, rfl⟩
  · exact .keeps hguard.symm rfl
  · exact .acquires hguard rfl rfl rfl

theorem Started.noSlot {s s' : Session} {params : Audio.StreamParams} {ip : IpAddr}
    {ports : Ports} {trace : Trace} (h : Started s params ip ports trace s') :
    ∃ rest, trace = s.acquired ++ rest ∧ NoSlot rest := by
  obtain ⟨opening, rfl, sink, player, audio, control, timing, controlPort, timingPort, rfl, rfl⟩ :=
    h.opening
  refine ⟨_, by rw [List.append_assoc], ?_⟩
  have hlatched : NoSlot (s.latched.map fun event => did (.send event)) := by simp [Op.isSlot]
  have hplayer := noSlot_of_cleanup (cleanup_playerDrop s.player)
  have hflush := noSlot_of_cleanup (cleanup_flushClose s.flushTx)
  simp only [List.cons_append, every_cons, every_append, hplayer, hflush, hlatched, every_nil]
  simp [asked, did, Op.isSlot]

theorem takes_handled {ctx : Context} {s s' : Session} {request : Request} {trace : Trace}
    {status : Nat} {slot slot' : Bool} (h : Handled ctx s request trace s' status)
    (hslot : slotRun slot trace = some slot') : Takes s.slotGuard slot s'.slotGuard slot' := by
  cases h with
  | reported hreports hsame _ =>
    rw [slotRun_of_noSlot _ (hreports.mono isSlot_of_isReport)] at hslot
    refine .keeps ?_ (Option.some.inj hslot).symm
    rw [hsame.same]
  | announced _ => exact .keeps rfl (Option.some.inj hslot).symm
  | rejected _ => exact .keeps rfl (Option.some.inj hslot).symm
  | busy _ _ _ _ =>
    cases slot with
    | false => cases hslot
    | true => exact .keeps rfl (Option.some.inj hslot).symm
  | failed _ _ _ hwhy =>
    rcases hwhy with ⟨_, rfl⟩ | ⟨_, rfl⟩
    · exact takes_acquired (every_nil _) (by rwa [List.append_nil])
    · exact takes_acquired (by simp [asked, Op.isSlot]) hslot
  | started _ _ _ _ hst =>
    obtain ⟨rest, rfl, hrest⟩ := hst.noSlot
    have htakes := takes_acquired hrest hslot
    obtain ⟨_, _, _, _, _, _, _, _, _, _, rfl⟩ := hst.opening
    exact htakes
  | closed _ hdown _ => exact takes_teardown hdown hslot

theorem takes_dispatch {ctx : Context} {s s' : Session} {request : Request} {trace : Trace}
    {response : Response} {slot slot' : Bool}
    (h : Runs (ctx.dispatch s request) trace (s', response))
    (hslot : slotRun slot trace = some slot') : Takes s.slotGuard slot s'.slotGuard slot' := by
  rcases dispatch_cases h with ⟨_, hhandled⟩ | ⟨_, _, nonce, hch⟩
  · exact takes_handled (s := { s with authorized := true }) hhandled hslot
  · obtain rfl := hch.nonce_of_session
    rcases hch.issued with ⟨_, rfl⟩ | ⟨_, bytes, _, rfl⟩
    · exact .keeps rfl (Option.some.inj hslot).symm
    · exact .keeps rfl (Option.some.inj hslot).symm

end Session

/-- Surroundings that oblige, except that the slot is as it stands. -/
def obligingWith (slot : Bool) : (o : Op) → o.Res
  | .ask .compareExchange => !slot
  | o => obliging o

theorem slotAfter_obligingWith (slot : Bool) (o : Op) :
    (slotAfter slot ⟨o, obligingWith slot o⟩).isSome := by
  cases o with
  | ask query => cases query <;> simp [slotAfter, obligingWith]
  | act effect => cases effect <;> rfl

end OpenAirplay
