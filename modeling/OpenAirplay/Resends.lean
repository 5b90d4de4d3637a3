import OpenAirplay.ControlReceiver
import OpenAirplay.FlushTimestamps
import OpenAirplay.Gaps

/-!
# Requests for retransmission

Which of the missing packets are asked for again, and when: what the tracker remembers of its
past calls, and what the audio task asks the client for.
-/

namespace OpenAirplay.Audio

open Jitter Rtp SerialNumber Reassembly

set_option autoImplicit false

/-! ## The tracker -/

inductive TrackerCall where
  | due (missing : List U16) (now : Nat)
  | clear

def TrackerCall.time? : TrackerCall → Option Nat
  | .due _ now => some now
  | .clear => none

/-- The call leaves `seq` among the missing. -/
def TrackerCall.Keeps (seq : U16) : TrackerCall → Prop
  | .due missing _ => seq ∈ missing
  | .clear => False

namespace ResendTracker

def call (rt : ResendTracker) : TrackerCall → ResendTracker
  | .due missing now => (rt.due missing now).2
  | .clear => rt.clear

/-- The tracker after its calls, the latest last. -/
def after (calls : List TrackerCall) : ResendTracker := calls.foldl call default

/-- What `due` returns when it is called after `calls`. -/
def requested (calls : List TrackerCall) (missing : List U16) (now : Nat) : List U16 :=
  ((after calls).due missing now).1

def times (calls : List TrackerCall) : List Nat := calls.filterMap TrackerCall.time?

/-- `seq` was asked for at `t` and has been missing in every call since. -/
def AskedAt (calls : List TrackerCall) (seq : U16) (t : Nat) : Prop :=
  ∃ pre missing mid, calls = pre ++ .due missing t :: mid ∧ seq ∈ requested pre missing t ∧
    ∀ c ∈ mid, c.Keeps seq

/-- The latest such request is less than the backoff ago. -/
def Recent (calls : List TrackerCall) (now : Nat) (seq : U16) : Prop :=
  ∃ t, AskedAt calls seq t ∧ now < t + resendBackoff

theorem ready_update (rt : ResendTracker) (now : Nat) (seq x : U16) :
    ready ⟨Function.update rt.last seq (some now)⟩ now x = (rt.ready now x && !(x == seq)) := by
  by_cases hx : x = seq
  · subst hx
    simp [ready, resendBackoff]
  · simp [ready, hx]

theorem dueLoop_fst (now : Nat) (missing : List U16) (rt : ResendTracker) :
    (dueLoop now missing rt).1 = (missing.filter (rt.ready now)).eraseDups := by
  induction missing generalizing rt with
  | nil => rfl
  | cons seq missing ih =>
    rw [dueLoop]
    by_cases hready : rt.ready now seq = true
    · rw [if_pos hready, List.filter_cons_of_pos hready, List.eraseDups_cons, List.filter_filter]
      simp only [ih]
      congr 3
      funext x
      rw [ready_update, Bool.and_comm]
    · rw [if_neg hready, List.filter_cons_of_neg hready, ih]

theorem mem_dueLoop_iff {now : Nat} {missing : List U16} {rt : ResendTracker} {seq : U16} :
    seq ∈ (dueLoop now missing rt).1 ↔ seq ∈ missing ∧ rt.ready now seq = true := by
  rw [dueLoop_fst, List.mem_eraseDups, List.mem_filter]

theorem dueLoop_last (now : Nat) (missing : List U16) (rt : ResendTracker) (seq : U16) :
    (dueLoop now missing rt).2.last seq =
      if seq ∈ (dueLoop now missing rt).1 then some now else rt.last seq := by
  induction missing generalizing rt with
  | nil => rfl
  | cons x missing ih =>
    rw [dueLoop]
    by_cases hready : rt.ready now x = true
    · simp only [if_pos hready, ih, List.mem_cons]
      by_cases hx : seq = x
      · subst hx
        simp
      · simp [hx]
    · simp only [if_neg hready, ih, mem_dueLoop_iff]

/-- A request is due when none was made yet or the latest is the backoff ago. -/
theorem mem_due_iff {rt : ResendTracker} {missing : List U16} {now : Nat} {seq : U16} :
    seq ∈ (rt.due missing now).1 ↔ seq ∈ missing ∧ rt.ready now seq = true := by
  rw [due, mem_dueLoop_iff]
  refine and_congr_right fun hseq => ?_
  simp [ready, hseq]

theorem due_last (rt : ResendTracker) (missing : List U16) (now : Nat) (seq : U16) :
    (rt.due missing now).2.last seq =
      if seq ∈ (rt.due missing now).1 then some now
      else if seq ∈ missing then rt.last seq else none :=
  dueLoop_last now missing _ seq

theorem due_fst (rt : ResendTracker) (missing : List U16) (now : Nat) :
    (rt.due missing now).1 = (missing.filter (rt.ready now)).eraseDups := by
  rw [due, dueLoop_fst]
  congr 1
  refine List.filter_congr fun seq hseq => ?_
  simp [ready, hseq]

theorem after_snoc (calls : List TrackerCall) (c : TrackerCall) :
    after (calls ++ [c]) = (after calls).call c := by
  simp [after, List.foldl_append]

theorem times_snoc (calls : List TrackerCall) (c : TrackerCall) :
    times (calls ++ [c]) = times calls ++ c.time?.toList := by
  cases c <;> simp [times, TrackerCall.time?]

theorem askedAt_snoc {calls : List TrackerCall} {c : TrackerCall} {seq : U16} {t : Nat} :
    AskedAt (calls ++ [c]) seq t ↔
      (AskedAt calls seq t ∧ c.Keeps seq) ∨
        ∃ missing, c = .due missing t ∧ seq ∈ requested calls missing t := by
  constructor
  · intro h
    obtain ⟨pre, missing, mid, heq, hasked, hkeeps⟩ := h
    rcases List.eq_nil_or_concat mid with hmid | ⟨mid', last, hmid⟩
    · subst hmid
      obtain ⟨hcalls, hc⟩ := List.append_inj' heq rfl
      right
      refine ⟨missing, List.singleton_inj.mp hc, ?_⟩
      rwa [hcalls]
    · rw [List.concat_eq_append] at hmid
      subst hmid
      rw [← List.cons_append, ← List.append_assoc] at heq
      obtain ⟨hcalls, hc⟩ := List.append_inj' heq rfl
      obtain rfl := List.singleton_inj.mp hc
      left
      refine ⟨⟨pre, missing, mid', hcalls, hasked, ?_⟩, hkeeps c (by simp)⟩
      intro d hd
      exact hkeeps d (List.mem_append_left _ hd)
  · intro h
    rcases h with ⟨⟨pre, missing, mid, rfl, hasked, hkeeps⟩, hc⟩ | ⟨missing, rfl, hasked⟩
    · refine ⟨pre, missing, mid ++ [c], by simp, hasked, ?_⟩
      intro d hd
      rcases List.mem_append.mp hd with hd | hd
      · exact hkeeps d hd
      · rwa [List.mem_singleton.mp hd]
    · exact ⟨calls, missing, [], rfl, hasked, by simp⟩

theorem askedAt_mem_times {calls : List TrackerCall} {seq : U16} {t : Nat}
    (h : AskedAt calls seq t) : t ∈ times calls := by
  obtain ⟨pre, missing, mid, rfl, -, -⟩ := h
  exact List.mem_filterMap.mpr ⟨.due missing t, by simp, rfl⟩

/-- What the tracker holds of a number is its latest request. -/
structure Remembers (calls : List TrackerCall) (rt : ResendTracker) : Prop where
  asked : ∀ seq t, rt.last seq = some t → AskedAt calls seq t
  latest : ∀ seq t, AskedAt calls seq t → ∃ t', rt.last seq = some t' ∧ t ≤ t'

theorem Remembers.due {calls : List TrackerCall} (h : Remembers calls (after calls))
    (missing : List U16) {now : Nat} (hnow : ∀ t ∈ times calls, t ≤ now) :
    Remembers (calls ++ [.due missing now]) ((after calls).due missing now).2 := by
  constructor
  · intro seq t hlast
    rw [due_last] at hlast
    rw [askedAt_snoc]
    split at hlast
    · rename_i hmem
      obtain rfl := Option.some.inj hlast
      exact .inr ⟨missing, rfl, hmem⟩
    · split at hlast
      · rename_i hkept
        exact .inl ⟨h.asked seq t hlast, hkept⟩
      · cases hlast
  · intro seq t hasked
    rw [due_last]
    rcases askedAt_snoc.mp hasked with ⟨hbefore, hkept⟩ | ⟨missing', hcall, hmem⟩
    · have hmissing : seq ∈ missing := hkept
      obtain ⟨t', hlast, hle⟩ := h.latest seq t hbefore
      rw [if_pos hmissing]
      split
      · exact ⟨now, rfl, hnow t (askedAt_mem_times hbefore)⟩
      · exact ⟨t', hlast, hle⟩
    · obtain ⟨rfl, rfl⟩ := TrackerCall.due.inj hcall
      exact ⟨_, if_pos hmem, Nat.le_refl _⟩

theorem Remembers.clear {calls : List TrackerCall} :
    Remembers (calls ++ [.clear]) (after calls).clear := by
  constructor
  · intro seq t hlast
    cases hlast
  · intro seq t hasked
    rcases askedAt_snoc.mp hasked with ⟨-, hkept⟩ | ⟨missing, hcall, -⟩
    · exact hkept.elim
    · cases hcall

theorem remembers {calls : List TrackerCall} (h : (times calls).Pairwise (· ≤ ·)) :
    Remembers calls (after calls) := by
  induction calls using List.reverseRecOn with
  | nil =>
    constructor
    · intro seq t hlast
      cases hlast
    · intro seq t hasked
      exact absurd (askedAt_mem_times hasked) (by simp [times])
  | append_singleton calls c ih =>
    rw [times_snoc, List.pairwise_append] at h
    obtain ⟨hcalls, -, hlater⟩ := h
    rw [after_snoc]
    cases c with
    | due missing now =>
      exact (ih hcalls).due missing fun t ht => hlater t ht now (by simp [TrackerCall.time?])
    | clear => exact Remembers.clear

theorem Remembers.ready_iff {calls : List TrackerCall} {rt : ResendTracker}
    (h : Remembers calls rt) {now : Nat} {seq : U16} :
    rt.ready now seq = true ↔ ¬Recent calls now seq := by
  have hbackoff : 0 < resendBackoff := by decide
  unfold ready
  cases hlast : rt.last seq with
  | none =>
    simp only [true_iff]
    intro hrecent
    obtain ⟨t, hasked, -⟩ := hrecent
    obtain ⟨t', ht', -⟩ := h.latest seq t hasked
    rw [hlast] at ht'
    cases ht'
  | some last =>
    simp only [decide_eq_true_eq]
    constructor
    · intro hpast hrecent
      obtain ⟨t, hasked, hnow⟩ := hrecent
      obtain ⟨t', ht', hle⟩ := h.latest seq t hasked
      obtain rfl := Option.some.inj (hlast.symm.trans ht')
      omega
    · intro hrecent
      by_contra hsoon
      exact hrecent ⟨last, h.asked seq last hlast, by omega⟩

end ResendTracker

open ResendTracker in
open Classical in
/-- The missing numbers are asked for in their order, but for those asked for less than the
backoff ago and missing ever since: so the requests for one of them lie the backoff apart. -/
theorem due_paced (calls : List TrackerCall) (missing : List U16) (now : Nat)
    (h : (times calls ++ [now]).Pairwise (· ≤ ·)) :
    requested calls missing now = (missing.filter fun seq => ¬Recent calls now seq).eraseDups ∧
      ∀ seq ∈ requested calls missing now, ∀ t, AskedAt calls seq t → t + resendBackoff ≤ now := by
  have hcalls := remembers (List.pairwise_append.mp h).1
  constructor
  · unfold requested
    rw [due_fst]
    congr 1
    refine List.filter_congr fun seq _ => ?_
    rw [Bool.eq_iff_iff, hcalls.ready_iff, decide_eq_true_eq]
  · intro seq hseq t hasked
    by_contra hsoon
    exact hcalls.ready_iff.mp (mem_due_iff.mp hseq).2 ⟨t, hasked, by omega⟩

open ResendTracker in
open Classical in
/-- Number 7 stays missing, number 5 leaves and comes back. -/
theorem due_paced_returning :
    requested [.due [5, 7] 0, .due [7] 20] [5, 7] 40 =
        (([5, 7] : List U16).filter
          fun seq => ¬Recent [.due [5, 7] 0, .due [7] 20] 40 seq).eraseDups ∧
      ∀ seq ∈ requested [.due [5, 7] 0, .due [7] 20] [5, 7] 40,
        ∀ t, AskedAt [.due [5, 7] 0, .due [7] 20] seq t → t + resendBackoff ≤ 40 :=
  due_paced [.due [5, 7] 0, .due [7] 20] [5, 7] 40 (by decide)

example : ResendTracker.requested [.due [5, 7] 0, .due [7] 20] [5, 7] 40 = [5] := by decide

/-! ## What the audio task asks for -/

section Task

variable {decryptBlock : Block → Bytes → Bytes} {cfg : Config}

theorem maxLead_lt : maxLead < capacity := by decide

/-- The jitter buffer over the whole run, keeping each packet with its header. -/
def record (inputs : List Input) : Segment AudioPacket :=
  (Segment.fresh maxLead maxLead_lt).run (inputs.flatMap Input.calls)

theorem record_snoc (inputs : List Input) (i : Input) :
    record (inputs ++ [i]) = (record inputs).run i.calls := by
  simp [record, Segment.run, List.flatMap_append, List.foldl_append]

theorem record_tracks (inputs : List Input) : (record inputs).Tracks :=
  Segment.tracks_run (Segment.tracks_fresh maxLead_lt) _

variable (decryptBlock cfg) in
theorem turn_calls {task : Task} {seg : Segment AudioPacket} (i : Input)
    (h : task.jitter = seg.buffer.map (frameOf decryptBlock cfg)) :
    (task.turn decryptBlock cfg i).1.jitter =
      (seg.run i.calls).buffer.map (frameOf decryptBlock cfg) := by
  cases hp : i.packet? with
  | some p =>
    rw [turn_packet hp, takePacket_eq, FollowsFlush.calls_packet hp, h, JitterBuffer.arrive_map]
    rfl
  | none =>
    cases i with
    | audio d =>
      have hparse : AudioPacket.parse (d.take audioBuffer) = none := hp
      simp only [Task.turn, hparse, Input.calls, hp]
      exact h
    | audioError => exact h
    | resend d =>
      cases d with
      | none => exact h
      | some d =>
        have hparse : AudioPacket.parse d = none := hp
        simp only [Task.turn, hparse, Input.calls, hp]
        exact h
    | tick now =>
      obtain ⟨⟨resend, htask⟩, -⟩ :=
        requestResends_spec cfg (drainDeliveries cfg task).1 now
      have hjitter : (task.turn decryptBlock cfg (.tick now)).1.jitter =
          task.jitter.popReady.2 := by
        change (requestResends cfg (drainDeliveries cfg task).1 now).1.jitter = _
        rw [htask]
        rfl
      rw [hjitter, h, JitterBuffer.popReady_map]
      rfl
    | flush flushTo =>
      cases flushTo with
      | none => exact h
      | some flushTo =>
        simp only [Task.turn, h, ← JitterBuffer.reset_map]
        rfl

variable (decryptBlock cfg) in
theorem run_record (inputs : List Input)
    (hrunning : (Task.new.run decryptBlock cfg inputs).1.running = true) :
    (Task.new.run decryptBlock cfg inputs).1.jitter =
      (record inputs).buffer.map (frameOf decryptBlock cfg) := by
  induction inputs using List.reverseRecOn with
  | nil =>
    simp [Task.run, Task.new, record, Segment.run, Segment.fresh, JitterBuffer.default,
      JitterBuffer.new, JitterBuffer.map]
  | append_singleton inputs i ih =>
    rw [run_snoc] at hrunning ⊢
    by_cases hbefore : (Task.new.run decryptBlock cfg inputs).1.running = true
    · rw [Task.step, if_pos hbefore, record_snoc]
      exact turn_calls decryptBlock cfg i (ih hbefore)
    · rw [Task.step, if_neg hbefore] at hrunning
      exact absurd hrunning hbefore

theorem missing_map {F G : Type} (f : F → G) (jb : JitterBuffer F) :
    (jb.map f).missing = jb.missing := by
  have hloop : ∀ highest fuel seq,
      (jb.map f).missingLoop highest fuel seq = jb.missingLoop highest fuel seq := by
    intro highest fuel
    induction fuel with
    | zero => exact fun _ => rfl
    | succ fuel ih =>
      intro seq
      simp only [JitterBuffer.missingLoop, ih, JitterBuffer.lookup_map, Option.isNone_map]
  simp only [JitterBuffer.missing, JitterBuffer.map_nextSeq, JitterBuffer.map_highestSeq, hloop]

theorem control_not_mem_deliver {anchor : Option (U16 × U32)} {d : Delivery Bytes}
    {target : SocketAddr} {datagram : Bytes} :
    Output.control target datagram ∉ deliver cfg anchor d := by
  cases d with
  | packet seq frame =>
    unfold deliver
    cases cfg.player <;> cases cfg.observer <;> simp
  | lost seq =>
    unfold deliver
    cases cfg.player <;> simp

theorem control_not_mem_drain {task : Task} {target : SocketAddr} {datagram : Bytes} :
    Output.control target datagram ∉ (drainDeliveries cfg task).2 := by
  intro h
  obtain ⟨d, -, hd⟩ := List.mem_flatMap.mp h
  exact control_not_mem_deliver hd

/-- Only a tick asks for packets, and only for those missing once it has drained the buffer. -/
theorem turn_control {task : Task} {i : Input} {target : SocketAddr} {datagram : Bytes}
    (h : Output.control target datagram ∈ (task.turn decryptBlock cfg i).2) :
    (∃ now, i = .tick now) ∧ target = cfg.clientControl ∧
      ∃ seq ∈ task.jitter.popReady.2.missing, datagram = resendRequest seq 1 := by
  cases hp : i.packet? with
  | some p =>
    rw [turn_packet hp] at h
    exact absurd h control_not_mem_drain
  | none =>
    cases i with
    | audio d =>
      have hparse : AudioPacket.parse (d.take audioBuffer) = none := hp
      simp [Task.turn, hparse] at h
    | audioError => cases h
    | resend d =>
      cases d with
      | none => cases h
      | some d =>
        have hparse : AudioPacket.parse d = none := hp
        simp [Task.turn, hparse] at h
    | tick now =>
      rcases List.mem_append.mp h with h | h
      · exact absurd h control_not_mem_drain
      · replace h : Output.control target datagram ∈
          (requestResends cfg (drainDeliveries cfg task).1 now).2 := h
        unfold requestResends at h
        simp only at h
        split at h
        · cases h
        · obtain ⟨seq, hseq, heq⟩ := List.mem_map.mp h
          obtain ⟨htarget, hdatagram⟩ := Output.control.inj heq
          exact ⟨⟨now, rfl⟩, htarget.symm, seq, (ResendTracker.mem_due_iff.mp hseq).1,
            hdatagram.symm⟩
    | flush flushTo =>
      cases flushTo with
      | none => cases h
      | some flushTo =>
        simp only [Task.turn] at h
        split at h <;> simp at h

end Task

/-- The gaps reported are those of the stream, and the audio task asks for nothing else. -/
theorem resends_only_gaps (lead : Nat) (h : lead < capacity) :
    (∀ (F : Type) (calls : List (Call F)), GapsReported lead ((Segment.fresh lead h).run calls)) ∧
      ∀ decryptBlock cfg inputs i target datagram,
        Output.control target datagram ∈
            (Task.step decryptBlock cfg (Task.new.run decryptBlock cfg inputs).1 i).2 →
          target = cfg.clientControl ∧
            ∃ seq, IsGap (record (inputs ++ [i])) seq ∧ datagram = resendRequest seq 1 := by
  constructor
  · intro F calls
    have hgaps := (Segment.tracks_run (Segment.tracks_fresh h) calls).gapsReported
    rw [Segment.maxLead_run] at hgaps
    exact hgaps
  · intro decryptBlock cfg inputs i target datagram hmem
    unfold Task.step at hmem
    split at hmem
    · rename_i hrunning
      obtain ⟨⟨now, rfl⟩, htarget, seq, hseq, hdatagram⟩ := turn_control hmem
      refine ⟨htarget, seq, (record_tracks _).isGap_of_mem ?_, hdatagram⟩
      rw [run_record decryptBlock cfg inputs hrunning, JitterBuffer.popReady_map, missing_map] at hseq
      rw [record_snoc]
      exact hseq
    · cases hmem

/-- Packet 11 has not come when the service tick finds packet 12. -/
theorem resends_only_gaps_one :
    GapsReported 128 ((Segment.fresh 128 (by decide)).run
        [.insert 10 "a", .popReady, .insert 12 "c", .popReady]) ∧
      ∃ seq, IsGap (record [.audio (audioDatagram 10 0 0 [1]), .audio (audioDatagram 12 704 0 [3]),
        .tick 0]) seq ∧ resendRequest 11 1 = resendRequest seq 1 := by
  obtain ⟨hgaps, hasked⟩ := resends_only_gaps 128 (by decide)
  refine ⟨hgaps _ _, (hasked (fun _ b => b) exampleConfig
    [.audio (audioDatagram 10 0 0 [1]), .audio (audioDatagram 12 704 0 [3])] (.tick 0)
    exampleConfig.clientControl (resendRequest 11 1) ?_).2⟩
  decide +kernel

end OpenAirplay.Audio
