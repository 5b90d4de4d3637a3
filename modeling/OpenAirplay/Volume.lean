import OpenAirplay.AlsaRuns
import OpenAirplay.OnScreen
import OpenAirplay.StreamRates

/-!
# From the requests of a sender to the gain

A volume takes its way through the events of the session and the event task of the receiver,
while the playback thread goes on writing. None is lost or overtaken on it.
-/

namespace OpenAirplay

open Program Register Text Transitions

set_option autoImplicit false

/-! ## The volumes of a conversation -/

def Event.volume? : Event → Option (BitVec 32)
  | .volume db => some db
  | _ => none

def volumesOf (events : List Event) : List (BitVec 32) := events.filterMap Event.volume?

@[simp] theorem volumesOf_append (events more : List Event) :
    volumesOf (events ++ more) = volumesOf events ++ volumesOf more := List.filterMap_append

def volumeLine? (crates : Crates) (line : String) : Option (BitVec 32) :=
  (stripPrefix (trim line) "volume:").bind fun v => crates.parseF32 (trim v)

def Request.volumes (crates : Crates) (request : Request) : List (BitVec 32) :=
  if request.method = "SET_PARAMETER" ∧ isTextType (request.headers.get "Content-Type") then
    (lines (fromUtf8Lossy request.body)).filterMap (volumeLine? crates)
  else []

/-- A request that is not answered with 200 sets nothing. -/
def volumesPosted (crates : Crates) (answered : List (Request × Response)) :
    List (BitVec 32) :=
  answered.flatMap fun answer =>
    if answer.2.status = 200 then answer.1.volumes crates else []

theorem volumes_of_ne {crates : Crates} {request : Request}
    (h : request.method ≠ "SET_PARAMETER") : request.volumes crates = [] :=
  if_neg fun hset => h hset.1

theorem volume?_of_kind {event : Event} (h : event.kind?.isSome) : event.volume? = none := by
  cases event <;> first | rfl | cases h

theorem volumesOf_kinds {events : List Event} (h : ∀ event ∈ events, event.kind?.isSome) :
    volumesOf events = [] :=
  List.filterMap_eq_nil_iff.mpr fun event hevent => volume?_of_kind (h event hevent)

/-! ## The session -/

namespace Session

variable {crates : Crates} {s s' : Session} {trace : Trace}

theorem volumes_setProgress {value : String} {u : Unit}
    (h : Runs (s.setProgress value) trace u) : volumesOf (sentEvents trace) = [] := by
  unfold setProgress at h
  split at h
  · rw [(runs_pure.mp h).1]
    rfl
  · split at h
    · split at h
      · obtain ⟨rest, rfl, hrest⟩ := runs_act_bind.mp h
        rw [runs_act.mp hrest]
        rfl
      · rw [(runs_pure.mp h).1]
        rfl
    · rw [(runs_pure.mp h).1]
      rfl

theorem volumes_setTextParameter {line : String} {u : Unit}
    (h : Runs (s.setTextParameter crates (trim line)) trace u) :
    volumesOf (sentEvents trace) = (volumeLine? crates line).toList := by
  unfold setTextParameter at h
  unfold volumeLine?
  split at h
  · rename_i v hvolume
    rw [hvolume, Option.bind_some]
    split at h
    · rename_i hparse
      rw [(runs_pure.mp h).1, hparse]
      rfl
    · rename_i db hparse
      rw [runs_act.mp h, hparse]
      rfl
  · rename_i hvolume
    rw [hvolume, Option.bind_none, Option.toList_none]
    split at h
    · exact volumes_setProgress h
    · rw [(runs_pure.mp h).1]
      rfl

theorem volumes_setTextLines {text : List String} {u : Unit}
    (h : Runs (s.setTextLines crates text) trace u) :
    volumesOf (sentEvents trace) = text.filterMap (volumeLine? crates) := by
  induction text generalizing trace with
  | nil =>
    rw [(runs_pure.mp h).1]
    rfl
  | cons line text ih =>
    obtain ⟨before, _, rest, rfl, hline, hrest⟩ := runs_bind.mp h
    rw [sentEvents_append, volumesOf_append, volumes_setTextParameter hline, ih hrest]
    cases hvolume : volumeLine? crates line with
    | none => rw [List.filterMap_cons_none hvolume, Option.toList_none, List.nil_append]
    | some db => rw [List.filterMap_cons_some hvolume, Option.toList_some, List.singleton_append]

theorem volumes_sendSessionEvent {event : Event} (hkind : event.kind?.isSome)
    (h : Runs (s.sendSessionEvent event) trace s') : volumesOf (sentEvents trace) = [] := by
  rcases sendSessionEvent_cases h with ⟨_, hsent, _⟩ | ⟨_, rfl, _⟩
  · rw [hsent]
    exact volumesOf_kinds (by simpa using hkind)
  · rfl

theorem volumes_setTextParameters {body : Bytes}
    (h : Runs (s.setTextParameters crates body >>= fun _ => pure s) trace s') :
    volumesOf (sentEvents trace) =
      (lines (fromUtf8Lossy body)).filterMap (volumeLine? crates) := by
  obtain ⟨before, _, rest, rfl, hlines, hpure⟩ := runs_bind.mp h
  rw [(runs_pure.mp hpure).1, List.append_nil]
  exact volumes_setTextLines hlines

theorem volumes_setParameter {contentType : Option String} {body : Bytes}
    (h : Runs (s.setParameter crates contentType body) trace s') :
    volumesOf (sentEvents trace) = if isTextType contentType then
      (lines (fromUtf8Lossy body)).filterMap (volumeLine? crates) else [] := by
  unfold setParameter at h
  unfold isTextType
  generalize (contentType.map fun ct => trim ((split ct ';').headD ct)) = mediaType? at h ⊢
  cases mediaType? with
  | none =>
    rw [if_pos rfl]
    exact volumes_setTextParameters h
  | some mediaType =>
    by_cases hdmap : eqIgnoreAsciiCase mediaType dmapContentType = true
    · simp only [hdmap, if_true, Bool.not_true, Bool.false_and, Bool.false_eq_true, if_false] at h ⊢
      unfold setMetadata at h
      split at h
      · rw [(runs_pure.mp h).1]
        rfl
      · exact volumes_sendSessionEvent rfl h
    · by_cases himage : isImage mediaType = true
      · simp only [hdmap, himage, if_false, if_true, Bool.not_true, Bool.and_false,
          Bool.false_eq_true] at h ⊢
        exact volumes_sendSessionEvent rfl h
      · simp only [hdmap, himage, Bool.not_false, Bool.and_true, if_true] at h ⊢
        exact volumes_setTextParameters h

variable {ctx : Context} {request : Request} {response : Response}

theorem volumes_setup {localIp : IpAddr} (hlatched : ∀ event ∈ s.latched, event.kind?.isSome)
    (h : Runs (s.handleSetup request localIp) trace (s', response)) :
    volumesOf (sentEvents trace) = [] := by
  rcases setup_cases h with ⟨_, rfl, _⟩ | ⟨_, _, rfl, _⟩ | ⟨_, _, _, hwhy⟩ |
    ⟨params, ports, _, _, _, hst⟩
  · rfl
  · rfl
  · rcases hwhy with ⟨_, rfl⟩ | ⟨_, rfl⟩ <;> simp [sentEvents_acquired, volumesOf]
  · rw [hst.sentEvents_eq, ← List.singleton_append, volumesOf_append, volumesOf_kinds hlatched]
    rfl

theorem volumes_route (hlatched : ∀ event ∈ s.latched, event.kind?.isSome)
    (h : Runs (ctx.route s request) trace (s', response)) :
    volumesOf (sentEvents trace) = request.volumes ctx.crates := by
  cases byMethod h with
  | idle hother =>
    rw [volumes_of_ne fun hset => hother (by simp [hset])]
    rfl
  | announced hmethod =>
    rw [volumes_of_ne (by simp [hmethod])]
    rfl
  | setup hmethod hrun =>
    rw [volumes_of_ne (by simp [hmethod]), volumes_setup hlatched hrun]
  | teardown hmethod hrun =>
    rw [volumes_of_ne (by simp [hmethod]), sentEvents_teardown hrun, sentEvents_ending]
    split <;> rfl
  | flush hmethod hrun =>
    rw [volumes_of_ne (by simp [hmethod]), sentEvents_flush hrun]
    rfl
  | parameter hmethod hrun =>
    rw [volumes_setParameter hrun, Request.volumes]
    simp only [hmethod, true_and]

end Session

theorem Airs.kind_of_latched {kind : Kind} {V : Type} {write : Event → Option V} {blank v : V}
    {a : Airing} {s : Session} (h : Airs kind write blank a s.latch v) :
    ∀ event ∈ s.latched, event.kind?.isSome := by
  have hheld : ∀ kind, ∀ event ∈ (s.latch.held kind).toList, event.kind?.isSome := by
    intro kind event hevent
    rw [Option.mem_toList] at hevent
    cases hs : s.latch.streaming with
    | true =>
      rw [(h.shown hs).1 kind] at hevent
      cases hevent
    | false =>
      rw [(h.waiting hs).2 kind] at hevent
      exact h.posted event (List.mem_filter.mp (List.mem_of_getLast? hevent)).1
  intro event hevent
  rcases List.mem_append.mp hevent with hevent | hevent
  · exact hheld .metadata event hevent
  · exact hheld .artwork event hevent

section Posted

variable {ctx : Context} {s s' : Session} {trace : Trace} {kind : Kind} {V : Type}
  {write : Event → Option V} {blank v : V} {a : Airing}

theorem volumes_dispatch {request : Request} {response : Response}
    (hairs : Airs kind write blank a s.latch v)
    (hrun : Runs (ctx.dispatch s request) trace (s', response)) :
    volumesOf (sentEvents trace) =
      if response.status = 200 then request.volumes ctx.crates else [] := by
  by_cases hadmits : s.admits ctx request
  · obtain ⟨routed, rfl, hroute⟩ := Session.runs_dispatch_of_admits hadmits hrun
    rw [Session.volumes_route (s := { s with authorized := true }) hairs.kind_of_latched hroute,
      Context.finish_status]
    by_cases hmethod : request.method = "SET_PARAMETER"
    · rw [if_pos (Session.status_of_owned (.inr hmethod) hroute)]
    · rw [volumes_of_ne hmethod, ite_self]
  · obtain ⟨nonce, rfl, hch⟩ := Session.runs_dispatch_of_not_admits hadmits hrun
    rw [if_neg (by simp [Session.challenge])]
    rcases hch.issued with ⟨_, rfl⟩ | ⟨_, bytes, _, rfl⟩ <;> rfl

/-- Every volume of a conversation is sent, in order, and no other. -/
theorem volumes_serve {requests : List Request} {responses : List Response}
    (hdescribes : Describes kind write blank) (hairs : Airs kind write blank a s.latch v)
    (hrun : Runs (ctx.serve s requests) trace (s', responses)) :
    volumesOf (sentEvents trace) = volumesPosted ctx.crates (requests.zip responses) := by
  induction requests generalizing s a v trace responses with
  | nil =>
    obtain ⟨rfl, -⟩ := runs_pure.mp hrun
    rfl
  | cons request requests ih =>
    obtain ⟨part, s₁, response, rest, responses', rfl, hdispatch, hserve, rfl⟩ :=
      Context.runs_serve_cons.mp hrun
    rw [sentEvents_append, volumesOf_append, volumes_dispatch hairs hdispatch,
      ih (hairs.dispatch hdescribes hdispatch) hserve, List.zip_cons_cons, volumesPosted,
      volumesPosted, List.flatMap_cons]

end Posted

/-! ## The event task -/

namespace Alsa

/-- The receiver program: the events it has not taken yet, the sink with the gain that its event
task shares, and what the task has published. -/
structure EventTask (F : Type) where
  queue : List Event
  host : Host F
  published : List Event

inductive Act where
  | send (event : Event)
  | report (elapsed duration : Duration)
  | take (event : Event)
  | use (use : Use) (fed : Option Fed)

section Task

variable {F : Type} (fl : Floats F)

def gainOf (db : BitVec 32) : F := clamp fl (volumeToGain fl (fl.ofBits db))

def Host.hear (h : Host F) : Event → Host F
  | .volume db => { h with gain := gainOf fl db }
  | _ => h

/-- A session sends an event, the playback thread reports its position or uses its sink, or the
event task takes what is first in the channel. -/
inductive EventTask.Step : EventTask F → Act → EventTask F → Prop where
  | send (t : EventTask F) (event : Event) :
    Step t (.send event) { t with queue := t.queue ++ [event] }
  | report (t : EventTask F) (elapsed duration : Duration) :
    Step t (.report elapsed duration) { t with queue := t.queue ++ [.progress elapsed duration] }
  | take {t : EventTask F} {event : Event} {rest : List Event} : t.queue = event :: rest →
    Step t (.take event) ⟨rest, t.host.hear fl event, t.published ++ [event]⟩
  | use {t : EventTask F} {use : Use} {h : Host F} {fed : Option Fed} :
    (∀ db, use ≠ .volume db) → t.host.step fl use = some (h, fed) →
      Step t (.use use fed) { t with host := h }

/-- The gain after these volumes. -/
def inForce (gain : F) (dbs : List (BitVec 32)) : F := (dbs.getLast?.map (gainOf fl)).getD gain

end Task

def sends (acts : List Act) : List Event :=
  acts.filterMap fun
    | .send event => some event
    | _ => none

/-- All that came into the channel. -/
def arrivals (acts : List Act) : List Event :=
  acts.filterMap fun
    | .send event => some event
    | .report elapsed duration => some (.progress elapsed duration)
    | _ => none

def takes (acts : List Act) : List Event :=
  acts.filterMap fun
    | .take event => some event
    | _ => none

def uses (acts : List Act) : List Use :=
  acts.filterMap fun
    | .use use _ => some use
    | _ => none

section Runs

variable {F : Type} {fl : Floats F} {t t' : EventTask F} {acts : List Act}

theorem volumesOf_arrivals (acts : List Act) :
    volumesOf (arrivals acts) = volumesOf (sends acts) := by
  rw [volumesOf, volumesOf, arrivals, sends, List.filterMap_filterMap, List.filterMap_filterMap]
  congr 1
  funext act
  cases act <;> rfl

theorem ofSessions_arrivals (acts : List Act) :
    ofSessions (arrivals acts) = ofSessions (sends acts) := by
  rw [ofSessions, ofSessions, arrivals, sends, List.filter_filterMap, List.filter_filterMap]
  congr 1
  funext act
  cases act <;> rfl

/-- What came into the channel is what was taken and what is still there. -/
theorem conserved (h : Run (EventTask.Step fl) t acts t') :
    t.queue ++ arrivals acts = takes acts ++ t'.queue := by
  induction h with
  | nil t => simp [arrivals, takes]
  | @cons t mid t' act acts hfirst _ ih =>
    cases hfirst with
    | send event => simpa [arrivals, takes] using ih
    | report elapsed duration => simpa [arrivals, takes] using ih
    | take hqueue =>
      rw [hqueue]
      simpa [arrivals, takes] using ih
    | use _ _ => exact ih

theorem published_eq (h : Run (EventTask.Step fl) t acts t') :
    t'.published = t.published ++ takes acts := by
  induction h with
  | nil t => simp [takes]
  | @cons t mid t' act acts hfirst _ ih =>
    cases hfirst with
    | send event => exact ih
    | report elapsed duration => exact ih
    | take hqueue => simpa [takes] using ih
    | use _ _ => exact ih

theorem inForce_cons (gain : F) (db : BitVec 32) (dbs : List (BitVec 32)) :
    inForce fl gain (db :: dbs) = inForce fl (gainOf fl db) dbs := by
  rw [inForce, inForce, List.getLast?_cons, Option.map_some, Option.getD_some]
  cases dbs.getLast? <;> rfl

/-- Only the event task changes the gain. -/
theorem host_at {format : Format} {n : Nat} {gain : F} (h : Run (EventTask.Step fl) t acts t')
    (ht : t.host = .at format n gain) :
    t'.host = .at (after Use.format? format (uses acts)) ((uses acts).foldl Use.count n)
      (inForce fl gain (volumesOf (takes acts))) := by
  induction h generalizing format n gain with
  | nil t => exact ht
  | @cons t mid t' act acts hfirst _ ih =>
    cases hfirst with
    | send event => exact ih ht
    | report elapsed duration => exact ih ht
    | @take event rest hqueue =>
      cases event with
      | volume db =>
        have hheard : t.host.hear fl (.volume db) = .at format n (gainOf fl db) := by
          rw [ht]
          rfl
        exact (ih hheard).trans (congrArg _ (inForce_cons gain db _).symm)
      | _ => exact ih ht
    | @use use host fed hother hstep =>
      rw [ht] at hstep
      have hsilent : (use.gain? fl).getD gain = gain := by
        cases use with
        | volume db => exact absurd rfl (hother db)
        | _ => rfl
      have hmid := step_at hstep
      rw [hsilent] at hmid
      exact ih hmid

end Runs

/-- However the requests, the event task and the playback thread take turns: what the sessions send
is published in order, but for what is still in the channel, and the gain of every write is that of
the last volume taken from it. These are the first of the volumes that the sender has posted, and
all of them once there are no more to come. -/
theorem volume_in_force {F : Type} (fl : Floats F) (ctx : Context) (observer : Bool)
    (peerIp : IpAddr) (requests : List Request) (trace : Trace) (s : Session)
    (responses : List Response)
    (hrun : Runs (ctx.serve (.new observer peerIp) requests) trace (s, responses))
    (format : Format) (gain : F) (acts : List Act) (t : EventTask F)
    (hacts : Run (EventTask.Step fl) ⟨[], ⟨.openDevice format, gain⟩, []⟩ acts t)
    (hsent : sends acts <+: sentEvents trace) :
    ofSessions (t.published ++ t.queue) = ofSessions (sends acts) ∧
      (sends acts = sentEvents trace → t.queue = [] →
        volumesOf (takes acts) = volumesPosted ctx.crates (requests.zip responses)) ∧
      ∀ before device pcm fed rest, acts = before ++ .use (.write device pcm) fed :: rest →
        volumesOf (takes before) <+: volumesPosted ctx.crates (requests.zip responses) ∧
          ∃ f, fed = some f ∧ FedWith fl (after Use.format? format (uses before))
            (inForce fl gain (volumesOf (takes before))) ((uses before).foldl Use.count 0)
            device pcm f := by
  have hposted := volumes_serve describes_artwork (airs_new observer peerIp) hrun
  have hall := conserved hacts
  rw [List.nil_append] at hall
  refine ⟨?_, fun hdone hempty => ?_, ?_⟩
  · rw [published_eq hacts, List.nil_append, ← hall, ofSessions_arrivals]
  · rw [hempty, List.append_nil] at hall
    rw [← hall, volumesOf_arrivals, hdone, hposted]
  · rintro before device pcm fed rest rfl
    obtain ⟨mid, hbefore, hrest⟩ := hacts.split
    have hearlier := conserved hbefore
    rw [List.nil_append] at hearlier
    have hsends : sends (before ++ .use (.write device pcm) fed :: rest) =
        sends before ++ sends rest := by simp [sends]
    obtain ⟨unsent, hunsent⟩ := hsent
    constructor
    · have htaken : volumesOf (sends before) = volumesOf (takes before) ++ volumesOf mid.queue := by
        rw [← volumesOf_arrivals, hearlier, volumesOf_append]
      rw [← hposted, ← hunsent, hsends, volumesOf_append, volumesOf_append, htaken]
      exact ⟨volumesOf mid.queue ++ volumesOf (sends rest) ++ volumesOf unsent,
        by simp only [List.append_assoc]⟩
    · cases hrest with
      | cons hstep _ =>
        cases hstep with
        | use _ hwrite =>
          rw [host_at hbefore (at_zero format gain)] at hwrite
          obtain ⟨-, f, hfed, hwith⟩ := step_write hwrite
          exact ⟨f, hfed, hwith⟩

/-! ## A mute on its way -/

def muteRequest : Request :=
  ⟨"SET_PARAMETER", "rtsp://192.168.1.10/1", [("Content-Type", "text/parameters")],
    utf8 "volume: -144\r\n"⟩

def mutingContext : Context :=
  { openContext with
    crates := { openContext.crates with
      parseF32 := fun text => if text = "-144" then some muteBits else none } }

/-- One write before the event task has taken the volume, and one after. -/
def mutingActs : List Act :=
  [.send (.sessionStarted 44100 2 client.peerIp), .take (.sessionStarted 44100 2 client.peerIp),
    .send (.volume muteBits),
    .use (.write halting [1, 2, 3, 4]) (some ⟨[1, 2, 3, 4], [1, 2, 3, 4]⟩), .report 1 200,
    .take (.volume muteBits)] ++
  [.use (.write halting [5, 6, 7, 8]) (some ⟨[0, 0, 0, 0], [0, 0, 0, 0]⟩)]

theorem muting_run : ∃ t,
    Run (EventTask.Step coarse) ⟨[], ⟨.openDevice stereo, coarse.one⟩, []⟩ mutingActs t := by
  refine ⟨_, .cons (.send _ _) (.cons (.take rfl) (.cons (.send _ _) (.cons (.use ?_ rfl)
    (.cons (.report _ _ _) (.cons (.take rfl) (.single (.use ?_ rfl)))))))⟩ <;>
  · intro db h
    cases h

theorem volume_in_force_muting : ∃ f, some ⟨[0, 0, 0, 0], [0, 0, 0, 0]⟩ = some f ∧
    FedWith coarse stereo 0 1 halting [5, 6, 7, 8] f := by
  obtain ⟨t, hacts⟩ := muting_run
  obtain ⟨-, -, hwrites⟩ := volume_in_force coarse mutingContext false client.peerIp
    [announceRequest, setupRequest, muteRequest] _ _ _ (runs_execute obliging _) stereo coarse.one
    mutingActs t hacts ⟨[], rfl⟩
  exact (hwrites _ _ _ _ _ rfl).2

end Alsa

end OpenAirplay
