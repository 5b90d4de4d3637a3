import OpenAirplay.Rtp

/-!
# The timing exchange

Requests leave one after another and a reply is measured against the latest departure. The
runs here are those with a client whose clock is ours plus a fixed offset, over a network
that delays, reorders, duplicates and loses.
-/

namespace OpenAirplay

open Rtp

set_option autoImplicit false

structure TimingTask where
  departureNs : Option Nat
  requestCount : Nat
  clock : ClockModel

inductive TimingInput where
  | send (now : Nat)
  | receive (now : Nat) (datagram : Bytes)

def timingBuffer : Nat := 2048

/-- A first burst, then every three seconds. -/
def timingInterval (requestCount : Nat) : Nat :=
  if requestCount ≤ 3 then 300 * 1000 * 1000 else 3 * 1000 * 1000 * 1000

namespace TimingTask

def new (sampleRate : U32) : TimingTask := ⟨none, 0, .new sampleRate⟩

/-- One step of `timing_task`, with what it sends. -/
def turn (task : TimingTask) : TimingInput → TimingTask × List Bytes
  | .send now =>
    ({ task with departureNs := some now, requestCount := task.requestCount + 1 }, [timingRequest])
  | .receive now datagram =>
    match task.departureNs, parseTimingReply (datagram.take timingBuffer) with
    | some departureNs, some reply =>
      ({ task with
          clock := task.clock.addTiming departureNs reply.receiveNs reply.transmitNs now }, [])
    | _, _ => (task, [])

end TimingTask

/-! ## The client and the network -/

/-- The request a reply answers, and when the client received it and replied, on our clock. -/
structure Origin where
  departure : Nat
  received : Nat
  transmitted : Nat

/-- A step of the run; a datagram that is no timing reply has no origin. -/
inductive TimingEvent where
  | send (now : Nat)
  | receive (now : Nat) (datagram : Bytes) (origin : Option Origin)

namespace TimingEvent

def now : TimingEvent → Nat
  | .send now => now
  | .receive now _ _ => now

def input : TimingEvent → TimingInput
  | .send now => .send now
  | .receive now datagram _ => .receive now datagram

def departure? : TimingEvent → Option Nat
  | .send now => some now
  | .receive _ _ _ => none

end TimingEvent

def departures (past : List TimingEvent) : List Nat := past.filterMap TimingEvent.departure?

/-- A reply of a client whose clock is ahead of ours by `offset`. -/
structure Answers (offset : Int) (past : List TimingEvent) (now : Nat) (datagram : Bytes)
    (origin : Origin) : Prop where
  sent : origin.departure ∈ departures past
  received : origin.departure ≤ origin.received
  transmitted : origin.received ≤ origin.transmitted
  arrived : origin.transmitted ≤ now
  stamped : ∃ reply, parseTimingReply (datagram.take timingBuffer) = some reply ∧
    (reply.receiveNs : Int) = origin.received + offset ∧
    (reply.transmitNs : Int) = origin.transmitted + offset

/-- What may happen after `past`: time does not go back, a request waits for the interval of
the one before it, and a reply may be late, overtaken or repeated. -/
def TimingEvent.Possible (offset : Int) (past : List TimingEvent) : TimingEvent → Prop
  | .send now => (∀ e ∈ past, e.now ≤ now) ∧ ∀ latest ∈ (departures past).getLast?,
      latest + timingInterval (departures past).length ≤ now
  | .receive now datagram none => (∀ e ∈ past, e.now ≤ now) ∧ departures past ≠ [] ∧
      parseTimingReply (datagram.take timingBuffer) = none
  | .receive now datagram (some origin) => (∀ e ∈ past, e.now ≤ now) ∧
      Answers offset past now datagram origin

def Possible (offset : Int) (run : List TimingEvent) : Prop :=
  ∀ past e later, run = past ++ e :: later → e.Possible offset past

def TimingTask.after (task : TimingTask) (run : List TimingEvent) : TimingTask :=
  run.foldl (fun task e => (task.turn e.input).1) task

/-! ## What the task makes of it -/

/-- A reply that is folded in is measured against the request it answers. -/
def TimingEvent.Paired (task : TimingTask) : TimingEvent → Prop
  | .receive now datagram (some origin) => ∀ departure reply sample,
      task.departureNs = some departure →
        parseTimingReply (datagram.take timingBuffer) = some reply →
          Sample.measure departure reply.receiveNs reply.transmitNs now = some sample →
            departure = origin.departure
  | _ => True

def Sample.Within (offset : Int) (s : Sample) : Prop :=
  |s.offset - offset| ≤ ((s.rtt + 1) / 2 : Nat)

/-- The offset in force is that of a sample with the lowest round trip, and half of that away
from the true one at most. -/
def ClockModel.Close (offset : Int) (m : ClockModel) : Prop :=
  ∀ inForce, m.offset = some inForce → ∃ s ∈ m.samples, s.offset = inForce ∧
    (∀ other ∈ m.samples, s.rtt ≤ other.rtt) ∧ s.Within offset

/-- The reply to an earlier request than the latest comes back sooner after the latest than
the client took over it. -/
def TimingEvent.Rejected (past : List TimingEvent) : TimingEvent → Prop
  | .receive now _ (some origin) => ∀ latest ∈ (departures past).getLast?,
      latest ≠ origin.departure → now - latest < origin.transmitted - origin.received
  | _ => True

section Measure

variable {offset : Int} {origin : Origin} {t1 t2 t3 t4 : Nat}

theorem measure_isSome_iff (h1 : t1 ≤ t4) (hturn : origin.received ≤ origin.transmitted)
    (h2 : (t2 : Int) = origin.received + offset) (h3 : (t3 : Int) = origin.transmitted + offset) :
    (Sample.measure t1 t2 t3 t4).isSome ↔ origin.transmitted - origin.received ≤ t4 - t1 := by
  have hprocessing : t2 ≤ t3 ∧ t3 - t2 = origin.transmitted - origin.received := by omega
  unfold Sample.measure
  rw [if_pos ⟨h1, hprocessing.1⟩, hprocessing.2]
  split <;> simp_all

/-- Half the round trip bounds the error, however the delay is split between the two ways. -/
theorem measure_within (hout : t1 ≤ origin.received) (hturn : origin.received ≤ origin.transmitted)
    (hback : origin.transmitted ≤ t4) (h2 : (t2 : Int) = origin.received + offset)
    (h3 : (t3 : Int) = origin.transmitted + offset) {s : Sample}
    (hs : Sample.measure t1 t2 t3 t4 = some s) : s.Within offset := by
  unfold Sample.measure at hs
  rw [if_pos (by omega), if_pos (by omega)] at hs
  obtain rfl := Option.some.inj hs
  simp only [Sample.Within]
  rw [abs_le]
  omega

end Measure

/-- Every sample is good, and the one in force is the best of them. -/
structure ClockModel.Sound (offset : Int) (m : ClockModel) : Prop where
  within : ∀ s ∈ m.samples, s.Within offset
  inForce : m.offset = (m.samples.argmin Sample.rtt).map Sample.offset

namespace ClockModel.Sound

variable {offset : Int} {m : ClockModel}

theorem new (sampleRate : U32) : (ClockModel.new sampleRate).Sound offset where
  within := by simp [ClockModel.new]
  inForce := rfl

theorem addTiming (h : m.Sound offset) {t1 t2 t3 t4 : Nat}
    (hsample : ∀ s, Sample.measure t1 t2 t3 t4 = some s → s.Within offset) :
    (m.addTiming t1 t2 t3 t4).Sound offset := by
  unfold ClockModel.addTiming
  split
  · exact h
  · rename_i sample hmeasure
    refine ⟨?_, rfl⟩
    intro s hs
    rcases mem_keep hs with hs | rfl
    · exact h.within s hs
    · exact hsample s hmeasure

theorem close (h : m.Sound offset) : m.Close offset := by
  intro inForce hinForce
  rw [h.inForce] at hinForce
  obtain ⟨s, hs, rfl⟩ := Option.map_eq_some_iff.mp hinForce
  have hmem := List.argmin_mem hs
  exact ⟨s, hmem, rfl, fun other hother => List.le_of_mem_argmin hother hs, h.within s hmem⟩

end ClockModel.Sound

section Runs

variable {offset : Int} {run past : List TimingEvent} {e : TimingEvent} {task : TimingTask}

theorem Possible.prefix {later : List TimingEvent} (h : Possible offset (past ++ later)) :
    Possible offset past := by
  rintro before e after rfl
  exact h before e (after ++ later) (by simp)

theorem possible_snoc (h : Possible offset past) (he : e.Possible offset past) :
    Possible offset (past ++ [e]) := by
  intro before e' after hsplit
  rcases List.eq_nil_or_concat' after with rfl | ⟨after, last, rfl⟩
  · obtain ⟨rfl, hlast⟩ := List.append_inj' hsplit rfl
    cases hlast
    exact he
  · have hinit : past ++ [e] = (before ++ e' :: after) ++ [last] := by simpa using hsplit
    exact h before e' after (List.append_inj' hinit rfl).1

theorem Possible.last (h : Possible offset (past ++ [e])) : e.Possible offset past :=
  h past e [] rfl

@[simp] theorem departures_append (past later : List TimingEvent) :
    departures (past ++ later) = departures past ++ departures later := by
  simp [departures, List.filterMap_append]

@[simp] theorem departures_send (now : Nat) : departures [.send now] = [now] := rfl

@[simp] theorem departures_receive (now : Nat) (datagram : Bytes) (origin : Option Origin) :
    departures [.receive now datagram origin] = [] := rfl

theorem after_snoc (task : TimingTask) (past : List TimingEvent) (e : TimingEvent) :
    task.after (past ++ [e]) = ((task.after past).turn e.input).1 := by
  simp only [TimingTask.after, List.foldl_append, List.foldl_cons, List.foldl_nil]

theorem le_of_departed (h : e.Possible offset past) {departure : Nat}
    (hmem : departure ∈ departures past) : departure ≤ e.now := by
  obtain ⟨sent, hsent, heq⟩ := List.mem_filterMap.mp hmem
  have hpast : ∀ earlier ∈ past, earlier.now ≤ e.now := by
    cases e with
    | send now => exact h.1
    | receive now datagram origin => cases origin <;> exact h.1
  cases sent with
  | send now =>
    cases heq
    exact hpast _ hsent
  | receive now datagram origin => cases heq

/-- A departure time names one request. -/
theorem departures_increasing (h : Possible offset run) :
    (departures run).Pairwise (· < ·) := by
  induction run using List.reverseRecOn with
  | nil => exact .nil
  | append_singleton past e ih =>
    have hpast := ih h.prefix
    cases e with
    | receive now datagram origin => simpa using hpast
    | send now =>
      have hwait := h.last.2
      rw [departures_append]
      refine List.pairwise_append.mpr ⟨hpast, List.pairwise_singleton .., ?_⟩
      intro departure hdeparture later hlater
      rw [List.mem_singleton.mp hlater]
      obtain ⟨before, latest, hsplit⟩ := List.eq_nil_or_concat'
        (departures past) |>.resolve_left (List.ne_nil_of_mem hdeparture)
      have hinterval : 0 < timingInterval (departures past).length := by
        unfold timingInterval
        split <;> decide
      have hlast := hwait latest (by simp [hsplit])
      rw [hsplit, List.pairwise_append] at hpast
      rw [hsplit, List.mem_append, List.mem_singleton] at hdeparture
      rcases hdeparture with hdeparture | rfl
      · have := hpast.2.2 departure hdeparture latest (List.mem_singleton_self latest)
        omega
      · omega

theorem after_departure (hnew : task.departureNs = none) (run : List TimingEvent) :
    (task.after run).departureNs = (departures run).getLast? := by
  induction run using List.reverseRecOn with
  | nil => exact hnew
  | append_singleton past e ih =>
    rw [after_snoc, departures_append]
    cases e with
    | send now => simp [TimingEvent.input, TimingTask.turn]
    | receive now datagram origin =>
      rw [departures_receive, List.append_nil, ← ih]
      simp only [TimingEvent.input, TimingTask.turn]
      split <;> rfl

theorem paired_iff_rejected (hlatest : task.departureNs = (departures past).getLast?)
    (h : e.Possible offset past) : e.Paired task ↔ e.Rejected past := by
  cases e with
  | send now => simp [TimingEvent.Paired, TimingEvent.Rejected]
  | receive now datagram origin =>
    cases origin with
    | none => simp [TimingEvent.Paired, TimingEvent.Rejected]
    | some origin =>
      obtain ⟨reply, hreply, h2, h3⟩ := h.2.stamped
      have hmeasure : ∀ latest ∈ (departures past).getLast?,
          (Sample.measure latest reply.receiveNs reply.transmitNs now).isSome ↔
            origin.transmitted - origin.received ≤ now - latest := by
        intro latest hlast
        exact measure_isSome_iff (le_of_departed h (List.mem_of_getLast? hlast)) h.2.transmitted
          h2 h3
      constructor
      · intro hpaired latest hlast hne
        by_contra hslow
        obtain ⟨sample, hsample⟩ := Option.isSome_iff_exists.mp
          ((hmeasure latest hlast).mpr (by omega))
        exact hne (hpaired latest reply sample (hlatest.trans hlast) hreply hsample)
      · intro hrejected departure reply' sample hdeparture hreply' hsample
        obtain rfl := Option.some.inj (hreply.symm.trans hreply')
        have hlast : departure ∈ (departures past).getLast? := hlatest.symm.trans hdeparture
        have hslow := (hmeasure departure hlast).mp (by simp [hsample])
        by_contra hne
        have := hrejected departure hlast hne
        omega

theorem sound_turn (hsound : task.clock.Sound offset) (h : e.Possible offset past)
    (hpaired : e.Paired task) : (task.turn e.input).1.clock.Sound offset := by
  cases e with
  | send now => exact hsound
  | receive now datagram origin =>
    simp only [TimingEvent.input, TimingTask.turn]
    split
    · rename_i departure reply hdeparture hreply
      cases origin with
      | none =>
        rw [h.2.2] at hreply
        cases hreply
      | some origin =>
        obtain ⟨reply', hreply', h2, h3⟩ := h.2.stamped
        obtain rfl := Option.some.inj (hreply'.symm.trans hreply)
        refine hsound.addTiming fun s hs => ?_
        obtain rfl := hpaired departure reply' s hdeparture hreply hs
        exact measure_within h.2.received h.2.transmitted h.2.arrived h2 h3 hs
    · exact hsound

theorem sound_after (hnew : task.departureNs = none) (hsound : task.clock.Sound offset)
    (h : Possible offset run)
    (hrejected : ∀ past e later, run = past ++ e :: later → e.Rejected past) :
    (task.after run).clock.Sound offset := by
  induction run using List.reverseRecOn with
  | nil => exact hsound
  | append_singleton past e ih =>
    have hpast := ih h.prefix fun before e' after hsplit =>
      hrejected before e' (after ++ [e]) (by simp [hsplit])
    rw [after_snoc]
    refine sound_turn hpast h.last ?_
    exact (paired_iff_rejected (after_departure hnew past) h.last).mpr (hrejected past e [] rfl)

end Runs

/-- Every reply folded in is paired with its own request, and the offset in force is as good as
its round trip says, exactly when no reply that comes after the next request departed takes
less than the time since. -/
theorem timing_paired_iff (sampleRate : U32) (offset : Int) (run : List TimingEvent)
    (h : Possible offset run) :
    (departures run).Pairwise (· < ·) ∧
      ((∀ past e later, run = past ++ e :: later →
          e.Paired ((TimingTask.new sampleRate).after past) ∧
            ((TimingTask.new sampleRate).after (past ++ [e])).clock.Close offset) ↔
        ∀ past e later, run = past ++ e :: later → e.Rejected past) := by
  refine ⟨departures_increasing h, ?_, ?_⟩
  · intro hpaired past e later hsplit
    have hlatest : ((TimingTask.new sampleRate).after past).departureNs =
        (departures past).getLast? := after_departure rfl past
    exact (paired_iff_rejected hlatest (h past e later hsplit)).mp (hpaired past e later hsplit).1
  · intro hrejected past e later hsplit
    have hlatest : ((TimingTask.new sampleRate).after past).departureNs =
        (departures past).getLast? := after_departure rfl past
    refine ⟨(paired_iff_rejected hlatest (h past e later hsplit)).mpr
      (hrejected past e later hsplit), ?_⟩
    have hrun : run = (past ++ [e]) ++ later := by simp [hsplit]
    rw [hrun] at h hrejected
    refine (sound_after rfl (.new sampleRate) h.prefix ?_).close
    intro before e' after hsplit'
    exact hrejected before e' (after ++ later) (by simp [hsplit'])

/-- A reply of a client five seconds ahead of us, a quarter of a second after zero. -/
def quarterReply : Bytes :=
  [0x80, 0xd3, 0, 7] ++ .replicate 12 0 ++ u32ToBe 5 ++ u32ToBe 0x40000000 ++ u32ToBe 5 ++
    u32ToBe 0x40000000

/-- The second request departs while the reply to the first is on its way back. -/
def lateRun : List TimingEvent :=
  [.send 0, .send 300000000, .receive 310000000 quarterReply (some ⟨0, 250000000, 250000000⟩)]

theorem lateRun_possible : Possible 5000000000 lateRun := by
  have hnil : Possible 5000000000 [] := by
    intro past e later hsplit
    simp at hsplit
  have hfirst : Possible 5000000000 ([] ++ [.send 0]) := by
    apply possible_snoc hnil
    simp [TimingEvent.Possible, departures]
  have hsecond : Possible 5000000000 ([.send 0] ++ [.send 300000000]) := by
    apply possible_snoc hfirst
    simp [TimingEvent.Possible, TimingEvent.now, timingInterval]
  have hthird : Possible 5000000000 ([.send 0, .send 300000000] ++
      [.receive 310000000 quarterReply (some ⟨0, 250000000, 250000000⟩)]) := by
    apply possible_snoc hsecond
    refine ⟨by simp [TimingEvent.now], ?_, by simp, by simp, by simp, ?_⟩
    · simp [departures, TimingEvent.departure?]
    · exact ⟨⟨5250000000, 5250000000⟩, by decide +kernel, by simp, by simp⟩
  exact hthird

theorem timing_paired_late :
    (departures lateRun).Pairwise (· < ·) ∧
      ((∀ past e later, lateRun = past ++ e :: later →
          e.Paired ((TimingTask.new 44100).after past) ∧
            ((TimingTask.new 44100).after (past ++ [e])).clock.Close 5000000000) ↔
        ∀ past e later, lateRun = past ++ e :: later → e.Rejected past) :=
  timing_paired_iff 44100 5000000000 lateRun lateRun_possible

/-- Measured against the second request, it looks like a round trip of 10 ms and puts the
offset 55 ms off. -/
theorem late_reply_mispaired :
    Possible 5000000000 lateRun ∧
      ((TimingTask.new 44100).after lateRun).clock.samples = [⟨10000000, 4945000000⟩] ∧
      ((TimingTask.new 44100).after lateRun).clock.offset = some 4945000000 ∧
      ¬∀ past e later, lateRun = past ++ e :: later →
        e.Paired ((TimingTask.new 44100).after past) ∧
          ((TimingTask.new 44100).after (past ++ [e])).clock.Close 5000000000 := by
  have hsamples : ((TimingTask.new 44100).after lateRun).clock.samples =
      [⟨10000000, 4945000000⟩] := by decide +kernel
  have hoffset : ((TimingTask.new 44100).after lateRun).clock.offset = some 4945000000 := by
    decide +kernel
  refine ⟨lateRun_possible, hsamples, hoffset, ?_⟩
  intro h
  obtain ⟨s, hs, _, _, hwithin⟩ := (h [.send 0, .send 300000000] _ [] rfl).2 _ hoffset
  obtain rfl : s = ⟨10000000, 4945000000⟩ := List.mem_singleton.mp (hsamples ▸ hs)
  simp [Sample.Within] at hwithin

end OpenAirplay
