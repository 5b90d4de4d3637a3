import OpenAirplay.ClockRuns
import OpenAirplay.ControlReceiver
import OpenAirplay.NtpTimestamps
import OpenAirplay.Shared.Transitions

/-!
# Playing in time with the sender

From the datagrams of the timing and the control channel to the instant at which the first frame
is played: what a quick exchange is worth when all times come in as NTP timestamps.
-/

namespace OpenAirplay

open Rtp Transitions

set_option autoImplicit false

/-! ## The start of playback -/

/-- How long the thread sleeps before it writes the first frame; `now` is the time it has. -/
def Player.awaitStartInstant (clock : ClockModel) (firstTs : Option U32) (now : Nat) :
    Except Fault Nat :=
  match firstTs with
  | none => .ok 0
  | some firstTs => do
    match ← clock.playTime firstTs with
    | none => return 0
    | some target => return if now < target then min (target - now) 2000000000 else 0

/-! ## The sender -/

/-- A sender whose clock is ahead of ours by `offset`. The stream starts at `start` on its clock,
with the timestamp `first`. -/
structure Source where
  offset : Int
  start : Nat
  first : U32
  rate : U32
  rate_pos : 0 < rate.toNat

namespace Source

/-- When the sender plays frame `k`, on its clock. -/
def remoteInstant (source : Source) (k : Nat) : Nat :=
  source.start + k * nanosPerSecond / source.rate.toNat

/-- The same on ours. -/
def instant (source : Source) (k : Nat) : Int := source.remoteInstant k - source.offset

def timestamp (source : Source) (k : Nat) : U32 := source.first + BitVec.ofNat 32 k

/-- What its clock says at an instant of ours. -/
def stamp (source : Source) (t : Nat) : Nat := (t + source.offset).toNat

end Source

/-- A request and the reply to it, on our clock. A request takes its time to arrive. -/
structure TimingExchange where
  departure : Nat
  received : Nat
  transmitted : Nat
  arrived : Nat
  out : departure < received
  turn : received ≤ transmitted
  back : transmitted ≤ arrived

/-- How long it was on the network. -/
def TimingExchange.network (e : TimingExchange) : Nat :=
  e.received - e.departure + (e.arrived - e.transmitted)

/-! ## On the wire -/

def ntpBytes (ns : Nat) : Bytes := u32ToBe (nsToNtp ns).1 ++ u32ToBe (nsToNtp ns).2

/-- What is left of an instant at the other end. -/
def throughNtp (ns : Nat) : Nat := ntpToNs (nsToNtp ns).1 (nsToNtp ns).2

/-- An instant that NTP can express. -/
def Expressible (ns : Nat) : Prop := ns < 2 ^ 32 * 1000000000

/-- A timing reply, whatever else is in it. -/
structure IsReply (datagram : Bytes) (received transmitted : Nat) : Prop where
  fields : ∃ b pt middle tail, datagram =
    b :: pt :: middle ++ (ntpBytes received ++ (ntpBytes transmitted ++ tail)) ∧
      pt &&& 0x7f = 0x53 ∧ middle.length = 14
  received_expressible : Expressible received
  transmitted_expressible : Expressible transmitted

/-- A sync packet, whatever else is in it. -/
structure IsSync (datagram : Bytes) (rtpAtDac : U32) (remoteTime : Nat) : Prop where
  fields : ∃ b pt c d current tail, datagram =
    [b, pt, c, d] ++ (u32ToBe rtpAtDac ++ (ntpBytes remoteTime ++ (u32ToBe current ++ tail))) ∧
      pt &&& 0x7f = 0x54
  expressible : Expressible remoteTime

theorem throughNtp_eq {ns : Nat} (h : Expressible ns) :
    throughNtp ns = ns ∨ throughNtp ns + 1 = ns := ntpToNs_nsToNtp h

theorem u32At_append (bytes : Bytes) (v : U32) (tail : Bytes) :
    u32At (bytes ++ (u32ToBe v ++ tail)) bytes.length = v := by
  have hat : ∀ i, (bytes ++ (u32ToBe v ++ tail)).getD (bytes.length + i) 0 =
      (u32ToBe v ++ tail).getD i 0 := by
    intro i
    rw [List.getD_eq_getElem?_getD, List.getElem?_append_right (Nat.le_add_right _ _),
      Nat.add_sub_cancel_left, List.getD_eq_getElem?_getD]
  have hfirst := hat 0
  rw [Nat.add_zero] at hfirst
  simp only [u32At, hat, hfirst]
  exact u32FromBe_toBe v

theorem ntpAt_append (bytes : Bytes) (ns : Nat) (tail : Bytes) :
    ntpAt (bytes ++ (ntpBytes ns ++ tail)) bytes.length = throughNtp ns := by
  have hfraction := u32At_append (bytes ++ u32ToBe (nsToNtp ns).1) (nsToNtp ns).2 tail
  have hlen : (bytes ++ u32ToBe (nsToNtp ns).1).length = bytes.length + 4 := by
    simp [u32ToBe]
  rw [hlen, List.append_assoc] at hfraction
  rw [ntpAt, ntpBytes, List.append_assoc, hfraction, u32At_append, throughNtp]

theorem length_ntpBytes (ns : Nat) : (ntpBytes ns).length = 8 := rfl

theorem IsReply.parse {datagram : Bytes} {received transmitted : Nat}
    (h : IsReply datagram received transmitted) :
    parseTimingReply (datagram.take timingBuffer) =
      some ⟨throughNtp received, throughNtp transmitted⟩ := by
  obtain ⟨b, pt, middle, tail, rfl, hpt, hmiddle⟩ := h.fields
  have hhead : (b :: pt :: middle).length = 16 := by simp [hmiddle]
  have htake : (b :: pt :: middle ++ (ntpBytes received ++ (ntpBytes transmitted ++ tail))).take
      timingBuffer = b :: pt :: middle ++
        (ntpBytes received ++ (ntpBytes transmitted ++ tail.take 2016)) := by
    rw [List.take_append, List.take_of_length_le (by rw [hhead]; decide), hhead, List.take_append,
      List.take_of_length_le (by rw [length_ntpBytes]; decide), length_ntpBytes, List.take_append,
      List.take_of_length_le (by rw [length_ntpBytes]; decide), length_ntpBytes]
    rfl
  have hreceived := ntpAt_append (b :: pt :: middle) received
    (ntpBytes transmitted ++ tail.take 2016)
  have htransmitted := ntpAt_append (b :: pt :: middle ++ ntpBytes received) transmitted
    (tail.take 2016)
  rw [hhead] at hreceived
  rw [List.length_append, hhead, length_ntpBytes, List.append_assoc] at htransmitted
  have hlong : ¬((b :: pt :: middle ++ (ntpBytes received ++
      (ntpBytes transmitted ++ tail.take 2016))).length < 32) := by
    simp only [List.length_append, hhead, length_ntpBytes]
    omega
  have htype : (b :: pt :: middle ++ (ntpBytes received ++
      (ntpBytes transmitted ++ tail.take 2016))).getD 1 0 &&& 0x7f = 0x53 := hpt
  rw [htake, parseTimingReply, if_neg, hreceived, htransmitted]
  rintro (hshort | hother)
  · exact hlong hshort
  · exact hother htype

theorem IsSync.parse {datagram : Bytes} {rtpAtDac : U32} {remoteTime : Nat}
    (h : IsSync datagram rtpAtDac remoteTime) :
    ∃ current, parseSync (datagram.take Audio.controlBuffer) =
      some ⟨throughNtp remoteTime, rtpAtDac, current⟩ := by
  obtain ⟨b, pt, c, d, current, tail, rfl, hpt⟩ := h.fields
  have htake : ([b, pt, c, d] ++ (u32ToBe rtpAtDac ++ (ntpBytes remoteTime ++
      (u32ToBe current ++ tail)))).take Audio.controlBuffer =
      [b, pt, c, d] ++ (u32ToBe rtpAtDac ++ (ntpBytes remoteTime ++
        (u32ToBe current ++ tail.take 2028))) := rfl
  have hrtp := u32At_append [b, pt, c, d] rtpAtDac
    (ntpBytes remoteTime ++ (u32ToBe current ++ tail.take 2028))
  have hremote := ntpAt_append ([b, pt, c, d] ++ u32ToBe rtpAtDac) remoteTime
    (u32ToBe current ++ tail.take 2028)
  have hfour : ([b, pt, c, d] : Bytes).length = 4 := rfl
  have height : ([b, pt, c, d] ++ u32ToBe rtpAtDac).length = 8 := rfl
  rw [hfour] at hrtp
  rw [height, List.append_assoc] at hremote
  rw [htake]
  have hsync : ¬(([b, pt, c, d] ++ (u32ToBe rtpAtDac ++ (ntpBytes remoteTime ++
      (u32ToBe current ++ tail.take 2028)))).length < 20 ∨ ([b, pt, c, d] ++ (u32ToBe rtpAtDac ++
      (ntpBytes remoteTime ++ (u32ToBe current ++ tail.take 2028)))).getD 1 0 &&& 0x7f ≠ 0x54) := by
    rintro (hshort | hother)
    · simp only [List.length_append, hfour, length_ntpBytes, u32ToBe, List.length_cons,
        List.length_nil] at hshort
      omega
    · exact hother hpt
  rw [parseSync, if_neg hsync, hremote, hrtp]
  exact ⟨_, rfl⟩

/-! ## Runs -/

inductive SyncEvent where
  | request (now : Nat)
  | reply (e : TimingExchange)
  | sync (k : Nat)
  | other

/-- The timing task sends a request, or a datagram comes in on either channel. On this network
the reply to a request is back before the next one leaves. -/
inductive Source.Step (source : Source) : TimingTask → SyncEvent → TimingTask → Prop where
  | request (task : TimingTask) (now : Nat) :
    Step source task (.request now) (task.turn (.send now)).1
  | reply {task : TimingTask} {e : TimingExchange} {datagram : Bytes} :
    task.departureNs = some e.departure → -source.offset ≤ e.received →
      IsReply datagram (source.stamp e.received) (source.stamp e.transmitted) →
        Step source task (.reply e) (task.turn (.receive e.arrived datagram)).1
  | sync {task : TimingTask} {k : Nat} {datagram : Bytes} :
    IsSync datagram (source.timestamp k) (source.remoteInstant k) →
      Step source task (.sync k) { task with clock := (Audio.controlTurn task.clock datagram).1 }
  | noReply {task : TimingTask} {now : Nat} {datagram : Bytes} :
    parseTimingReply (datagram.take timingBuffer) = none →
      Step source task .other (task.turn (.receive now datagram)).1
  | noSync {task : TimingTask} {datagram : Bytes} :
    parseSync (datagram.take Audio.controlBuffer) = none →
      Step source task .other { task with clock := (Audio.controlTurn task.clock datagram).1 }

def exchanges (events : List SyncEvent) : List TimingExchange :=
  events.filterMap fun
    | .reply e => some e
    | _ => none

def syncs (events : List SyncEvent) : List Nat :=
  events.filterMap fun
    | .sync k => some k
    | _ => none

namespace Source

variable (source : Source)

/-- What an event does to the clock model. -/
def call? : SyncEvent → Option ClockCall
  | .reply e => some (.addTiming e.departure (throughNtp (source.stamp e.received))
      (throughNtp (source.stamp e.transmitted)) e.arrived)
  | .sync k => some (.setAnchor (throughNtp (source.remoteInstant k)) (source.timestamp k))
  | _ => none

/-- The times in an event can be written down. -/
def Fits : SyncEvent → Prop
  | .reply e => -source.offset ≤ e.received ∧ Expressible (source.stamp e.received) ∧
      Expressible (source.stamp e.transmitted)
  | .sync k => Expressible (source.remoteInstant k)
  | _ => True

variable {source} {task task' : TimingTask} {events : List SyncEvent}

theorem Step.clock {event : SyncEvent} (h : source.Step task event task') :
    task'.clock = ((source.call? event).map task.clock.call).getD task.clock ∧
      source.Fits event := by
  cases h with
  | request now => exact ⟨rfl, trivial⟩
  | reply hdeparture hclock hreply =>
    refine ⟨?_, hclock, hreply.received_expressible, hreply.transmitted_expressible⟩
    simp only [TimingTask.turn, hdeparture, hreply.parse]
    rfl
  | sync hsync =>
    obtain ⟨current, hparse⟩ := hsync.parse
    refine ⟨?_, hsync.expressible⟩
    simp only [Audio.controlTurn, hparse]
    rfl
  | noReply hparse =>
    refine ⟨?_, trivial⟩
    simp only [TimingTask.turn, hparse]
    cases task.departureNs <;> rfl
  | noSync hparse =>
    refine ⟨?_, trivial⟩
    simp only [Audio.controlTurn, hparse]
    split <;> rfl

theorem run_clock (h : Run source.Step task events task') :
    task'.clock = (events.filterMap source.call?).foldl ClockModel.call task.clock ∧
      ∀ event ∈ events, source.Fits event := by
  induction h with
  | nil task => exact ⟨rfl, by simp⟩
  | @cons task mid task' event events hfirst _ ih =>
    obtain ⟨hclock, hfits⟩ := hfirst.clock
    refine ⟨?_, List.forall_mem_cons.mpr ⟨hfits, ih.2⟩⟩
    rw [ih.1, hclock]
    cases hcall : source.call? event with
    | none => rw [List.filterMap_cons_none hcall]; rfl
    | some c => rw [List.filterMap_cons_some hcall]; rfl

/-! ## What a reply is worth -/

variable (source) in
def sample? (e : TimingExchange) : Option Sample :=
  Sample.measure e.departure (throughNtp (source.stamp e.received))
    (throughNtp (source.stamp e.transmitted)) e.arrived

/-- Rounding makes a round trip a nanosecond longer at most, and never spoils the estimate. -/
theorem sample_of_fits {e : TimingExchange} (h : source.Fits (.reply e)) :
    ∃ s, source.sample? e = some s ∧ s.Within source.offset ∧ s.rtt ≤ e.network + 1 := by
  obtain ⟨hclock, hreceived, htransmitted⟩ := h
  have hout := e.out
  have hturn := e.turn
  have hback := e.back
  have ht2 := throughNtp_eq hreceived
  have ht3 := throughNtp_eq htransmitted
  have hsame : e.received = e.transmitted → throughNtp (source.stamp e.received) =
      throughNtp (source.stamp e.transmitted) := fun heq => by rw [heq]
  have hr2 : ((source.stamp e.received : Nat) : Int) = e.received + source.offset :=
    Int.toNat_of_nonneg (by omega)
  have hr3 : ((source.stamp e.transmitted : Nat) : Int) = e.transmitted + source.offset :=
    Int.toNat_of_nonneg (by omega)
  unfold sample?
  generalize throughNtp (source.stamp e.received) = t2 at ht2 hsame ⊢
  generalize throughNtp (source.stamp e.transmitted) = t3 at ht3 hsame ⊢
  have hordered : t2 ≤ t3 := by
    rcases hturn.lt_or_eq with hlt | heq
    · omega
    · exact (hsame heq).le
  have hlong : t3 - t2 ≤ e.arrived - e.departure := by omega
  have hmeasure : Sample.measure e.departure t2 t3 e.arrived = some
      ⟨e.arrived - e.departure - (t3 - t2),
        (t3 : Int) + ((e.arrived - e.departure - (t3 - t2)) / 2 : Nat) - e.arrived⟩ := by
    unfold Sample.measure
    rw [if_pos ⟨by omega, hordered⟩, if_pos hlong]
  refine ⟨_, hmeasure, ?_, ?_⟩
  · rw [Sample.Within, abs_le]
    dsimp only
    omega
  · unfold TimingExchange.network
    dsimp only
    omega

theorem sample?_call? {event : SyncEvent} :
    (source.call? event).bind ClockCall.sample? =
      match event with
      | .reply e => source.sample? e
      | _ => none := by
  cases event <;> rfl

/-- Every reply of the run makes a sample. -/
theorem samples_eq :
    (events.filterMap source.call?).filterMap ClockCall.sample? =
      (exchanges events).filterMap source.sample? := by
  rw [List.filterMap_filterMap, exchanges, List.filterMap_filterMap]
  apply List.filterMap_congr
  intro event _
  rw [sample?_call?]
  cases event <;> rfl

theorem drop_filterMap_of_isSome {A B : Type} {f : A → Option B} {xs : List A}
    (h : ∀ x ∈ xs, (f x).isSome) (n : Nat) : (xs.filterMap f).drop n = (xs.drop n).filterMap f := by
  induction xs generalizing n with
  | nil => simp
  | cons x xs ih =>
    obtain ⟨y, hy⟩ := Option.isSome_iff_exists.mp (h x List.mem_cons_self)
    have hrest := ih fun x hx => h x (List.mem_cons_of_mem _ hx)
    cases n with
    | zero => rfl
    | succ n =>
      rw [List.filterMap_cons_some hy, List.drop_succ_cons, List.drop_succ_cons, hrest]

theorem length_filterMap_of_isSome {A B : Type} {f : A → Option B} {xs : List A}
    (h : ∀ x ∈ xs, (f x).isSome) : (xs.filterMap f).length = xs.length := by
  induction xs with
  | nil => rfl
  | cons x xs ih =>
    obtain ⟨y, hy⟩ := Option.isSome_iff_exists.mp (h x List.mem_cons_self)
    rw [List.filterMap_cons_some hy, List.length_cons, List.length_cons,
      ih fun x hx => h x (List.mem_cons_of_mem _ hx)]

theorem fits_of_mem_exchanges (hfits : ∀ event ∈ events, source.Fits event) {e : TimingExchange}
    (he : e ∈ exchanges events) : source.Fits (.reply e) := by
  obtain ⟨event, hevent, hreply⟩ := List.mem_filterMap.mp he
  cases event with
  | reply e' => exact Option.some.inj hreply ▸ hfits _ hevent
  | _ => cases hreply

/-- The samples in the window are those of the last eight replies. -/
theorem recent_eq (hfits : ∀ event ∈ events, source.Fits event) :
    ClockModel.recent (events.filterMap source.call?) =
      ((exchanges events).rtake window).filterMap source.sample? := by
  have hsome : ∀ e ∈ exchanges events, (source.sample? e).isSome := by
    intro e he
    obtain ⟨s, hs, -⟩ := sample_of_fits (fits_of_mem_exchanges hfits he)
    rw [hs]
    rfl
  rw [ClockModel.recent, samples_eq, List.rtake, List.rtake, drop_filterMap_of_isSome hsome,
    length_filterMap_of_isSome hsome]

/-- As good as any of the last eight exchanges. -/
theorem offset_of_exchange (h : Run source.Step (.new source.rate) events task)
    {e : TimingExchange} (he : e ∈ (exchanges events).rtake window) :
    ∃ estimate, task.clock.offset = some estimate ∧
      |estimate - source.offset| ≤ ((e.network + 2) / 2 : Nat) := by
  obtain ⟨hclock, hfits⟩ := run_clock h
  obtain ⟨-, hoffset⟩ := ClockModel.after_spec source.rate (events.filterMap source.call?)
  have hrecent := recent_eq hfits
  obtain ⟨s, hs, -, hrtt⟩ := sample_of_fits (fits_of_mem_exchanges hfits (List.mem_of_mem_drop he))
  have hmem : s ∈ ClockModel.recent (events.filterMap source.call?) := by
    rw [hrecent]
    exact List.mem_filterMap.mpr ⟨e, he, hs⟩
  obtain ⟨best, hbest⟩ : ∃ best, best ∈
      (ClockModel.recent (events.filterMap source.call?)).argmin Sample.rtt := by
    cases hargmin : (ClockModel.recent (events.filterMap source.call?)).argmin Sample.rtt with
    | none =>
      rw [List.argmin_eq_none.mp hargmin] at hmem
      cases hmem
    | some best => exact ⟨best, rfl⟩
  have hle := List.le_of_mem_argmin hmem hbest
  have hwithin : best.Within source.offset := by
    have hmem' := List.argmin_mem hbest
    rw [hrecent] at hmem'
    obtain ⟨b, hb, hsample⟩ := List.mem_filterMap.mp hmem'
    obtain ⟨s', hs', hwithin, -⟩ :=
      sample_of_fits (fits_of_mem_exchanges hfits (List.mem_of_mem_drop hb))
    exact Option.some.inj (hs'.symm.trans hsample) ▸ hwithin
  refine ⟨best.offset, ?_, hwithin.trans ?_⟩
  · rw [hclock]
    refine hoffset.trans ?_
    rw [Option.mem_def.mp hbest, Option.map_some]
  · have hhalf : (best.rtt + 1) / 2 ≤ (e.network + 2) / 2 := Nat.div_le_div_right (by omega)
    exact_mod_cast hhalf

/-! ## The last sync packet -/

theorem sampleRate_foldl (calls : List ClockCall) (m : ClockModel) :
    (calls.foldl ClockModel.call m).sampleRate = m.sampleRate := by
  induction calls generalizing m with
  | nil => rfl
  | cons c calls ih =>
    rw [List.foldl_cons, ih]
    cases c with
    | setAnchor remoteTimeNs rtpAtDac => rfl
    | addTiming t1 t2 t3 t4 =>
      simp only [ClockModel.call, ClockModel.addTiming]
      split <;> rfl

theorem anchor_addTiming (m : ClockModel) (t1 t2 t3 t4 : Nat) :
    (m.addTiming t1 t2 t3 t4).anchor = m.anchor := by
  unfold ClockModel.addTiming
  split <;> rfl

theorem anchor_foldl {k : Nat} (m : ClockModel) (hlast : (syncs events).getLast? = some k) :
    ((events.filterMap source.call?).foldl ClockModel.call m).anchor =
      some (throughNtp (source.remoteInstant k), source.timestamp k) := by
  induction events using List.reverseRecOn with
  | nil => cases hlast
  | append_singleton events event ih =>
    rw [List.filterMap_append, List.foldl_append]
    rw [syncs, List.filterMap_append] at hlast
    cases event with
    | sync k' =>
      have hlast' : (syncs events ++ [k']).getLast? = some k := hlast
      rw [List.getLast?_concat] at hlast'
      obtain rfl := Option.some.inj hlast'
      rfl
    | reply e =>
      have hlast' : (syncs events ++ []).getLast? = some k := hlast
      rw [List.append_nil] at hlast'
      exact (anchor_addTiming _ _ _ _ _).trans (ih hlast')
    | _ =>
      have hlast' : (syncs events ++ []).getLast? = some k := hlast
      rw [List.append_nil] at hlast'
      exact ih hlast'

theorem fits_of_mem_syncs (hfits : ∀ event ∈ events, source.Fits event) {k : Nat}
    (hk : k ∈ syncs events) : Expressible (source.remoteInstant k) := by
  obtain ⟨event, hevent, hsync⟩ := List.mem_filterMap.mp hk
  cases event with
  | sync k' => exact Option.some.inj hsync ▸ hfits _ hevent
  | _ => cases hsync

/-! ## In time -/

theorem timestamp_eq (j k : Nat) :
    source.timestamp k = source.timestamp j + BitVec.ofInt 32 ((k : Int) - j) := by
  rw [timestamp, timestamp, ← BitVec.ofInt_natCast, ← BitVec.ofInt_natCast, add_assoc,
    ← BitVec.ofInt_add]
  congr 2
  omega

/-- The instant the clock model has for frame `k` is that of the sender, but for half the network
time of any of the last eight exchanges and three nanoseconds. -/
theorem playTime_near (h : Run source.Step (.new source.rate) events task) {e : TimingExchange}
    (he : e ∈ (exchanges events).rtake window) {j : Nat} (hj : (syncs events).getLast? = some j)
    {k : Nat} (hk : InRange ((k : Int) - j))
    (hlow : ((e.network / 2 + 3 : Nat) : Int) ≤ source.instant k)
    (hhigh : source.instant k + (e.network / 2 + 3 : Nat) < 2 ^ 64) :
    ∃ t, task.clock.playTime (source.timestamp k) = .ok (some t) ∧
      |(t : Int) - source.instant k| ≤ (e.network / 2 + 3 : Nat) := by
  obtain ⟨hclock, hfits⟩ := run_clock h
  obtain ⟨estimate, hoffset, hestimate⟩ := offset_of_exchange h he
  have hrate : task.clock.sampleRate = source.rate := by
    rw [hclock]
    exact sampleRate_foldl _ _
  have hanchor : task.clock.anchor =
      some (throughNtp (source.remoteInstant j), source.timestamp j) := by
    rw [hclock]
    exact anchor_foldl (.new source.rate) hj
  have hsync := throughNtp_eq (fits_of_mem_syncs hfits (List.mem_of_getLast? hj))
  have hsplit := frameNs_split source.rate_pos j k
  have hframe : (source.remoteInstant k : Int) = source.start + frameNs source.rate.toNat k := by
    rw [frameNs_natCast, remoteInstant, Nat.cast_add]
  have hanchored : (source.remoteInstant j : Int) = source.start + frameNs source.rate.toNat j := by
    rw [frameNs_natCast, remoteInstant, Nat.cast_add]
  have hnear : |frameInstant source.rate.toNat estimate (throughNtp (source.remoteInstant j))
      ((k : Int) - j) - source.instant k| ≤ (e.network / 2 + 3 : Nat) := by
    rw [instant, hframe, frameInstant]
    rw [abs_le] at hsplit hestimate ⊢
    omega
  rw [abs_le] at hnear
  refine ⟨(frameInstant source.rate.toNat estimate (throughNtp (source.remoteInstant j))
    ((k : Int) - j)).toNat, ?_, ?_⟩
  · rw [timestamp_eq j k, playTime_of_lt hoffset hanchor (hrate ▸ source.rate_pos) hk, hrate,
      instant?, if_pos (by omega)]
    rw [hrate]
    omega
  · rw [Int.toNat_of_nonneg (by omega), abs_le]
    exact hnear

/-- The first frame is played when the sender plays it, but for half the network time of any of
the last eight exchanges and three nanoseconds; at once if that is over, and after two seconds if
it is further away. -/
theorem started_in_time (source : Source) (events : List SyncEvent) (task : TimingTask)
    (hrun : Run source.Step (.new source.rate) events task) (e : TimingExchange)
    (he : e ∈ (exchanges events).rtake window) (j : Nat) (hj : (syncs events).getLast? = some j)
    (k : Nat) (hk : InRange ((k : Int) - j)) (error : Nat) (herror : e.network / 2 + 3 = error)
    (hlow : (error : Int) ≤ source.instant k) (hhigh : source.instant k + error < 2 ^ 64)
    (now : Nat) :
    ∃ wait, Player.awaitStartInstant task.clock (some (source.timestamp k)) now = .ok wait ∧
      (now ≤ source.instant k + error → source.instant k + error ≤ now + 2000000000 →
        |(now : Int) + wait - source.instant k| ≤ error) ∧
      (source.instant k + error < now → wait = 0) ∧
      (now + 2000000000 + error ≤ source.instant k → wait = 2000000000) := by
  subst herror
  obtain ⟨t, ht, hnear⟩ := playTime_near hrun he hj hk hlow hhigh
  refine ⟨if now < t then min (t - now) 2000000000 else 0, ?_, ?_, ?_, ?_⟩
  · simp only [Player.awaitStartInstant, ht]
    rfl
  · intro hsoon hlate
    rw [abs_le] at hnear ⊢
    split <;> omega
  · intro hover
    rw [abs_le] at hnear
    rw [if_neg (by omega)]
  · intro hfar
    rw [abs_le] at hnear
    rw [if_pos (by omega)]
    omega

/-! ## Just before the wrap of the timestamps -/

/-- Five seconds ahead, and about to play. -/
def aheadSource : Source := ⟨5000000000, 6000000000, 4294967290, 44100, by decide⟩

def quickExchange : TimingExchange :=
  ⟨0, 1000000, 1200000, 2500000, by decide, by decide, by decide⟩

theorem started_in_time_ahead : ∃ task wait,
    Run aheadSource.Step (.new 44100) [.request 0, .reply quickExchange, .sync 0] task ∧
      Player.awaitStartInstant task.clock (some 346) 3000000 = .ok wait ∧
        |(3000000 : Int) + wait - aheadSource.instant 352| ≤ 1150003 := by
  have hexpressible : ∀ ns ∈ [5001000000, 5001200000, 6000000000], Expressible ns := by
    unfold Expressible
    decide
  have hreply : IsReply (0x80 :: 0xd3 :: List.replicate 14 0 ++
      (ntpBytes 5001000000 ++ (ntpBytes 5001200000 ++ []))) 5001000000 5001200000 :=
    ⟨⟨0x80, 0xd3, List.replicate 14 0, [], rfl, rfl, rfl⟩, hexpressible _ (by simp),
      hexpressible _ (by simp)⟩
  have hsync : IsSync ([0x80, 0xd4, 0, 7] ++ (u32ToBe 4294967290 ++ (ntpBytes 6000000000 ++
      (u32ToBe 0 ++ [])))) 4294967290 6000000000 :=
    ⟨⟨0x80, 0xd4, 0, 7, 0, [], rfl, rfl⟩, hexpressible _ (by simp)⟩
  have hrun : ∃ task,
      Run aheadSource.Step (.new 44100) [.request 0, .reply quickExchange, .sync 0] task :=
    ⟨_, .cons (.request _ 0) (.cons (.reply rfl (by decide) hreply) (.single (.sync hsync)))⟩
  obtain ⟨task, hrun⟩ := hrun
  obtain ⟨wait, hwait, hstart, -⟩ := started_in_time aheadSource _ task hrun quickExchange
    (by simp [exchanges, window, List.rtake]) 0 rfl 352 ⟨by decide, by decide⟩ 1150003 rfl
    (by decide +kernel) (by decide +kernel) 3000000
  exact ⟨task, wait, hrun, hwait, hstart (by decide +kernel) (by decide +kernel)⟩

end Source

end OpenAirplay
