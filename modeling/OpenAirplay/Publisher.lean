import OpenAirplay.DashboardProtocol
import OpenAirplay.Events
import OpenAirplay.Shared.Broadcast
import OpenAirplay.Shared.Transitions

/-!
# Publishing to a dashboard

The receiver applies each event to its snapshot and then sends it to the channel; a client
subscribes, gets the snapshot and then the changes, and a new snapshot when it falls behind.
The steps of the two interleave.
-/

namespace OpenAirplay.Dashboard

open Broadcast Transitions

set_option autoImplicit false

def channelCapacity : Nat := 64

/-! ## Events on the wire -/

def ipv4String (a b c d : UInt8) : String :=
  ".".intercalate ([a, b, c, d].map fun octet => Nat.repr octet.toNat)

/-- Where a run of zero segments starts, and its length. -/
structure Span where
  start : Nat
  len : Nat

def longestZeros : Nat → Span → Span → List Nat → Span
  | _, _, longest, [] => longest
  | i, current, longest, segment :: rest =>
    if segment = 0 then
      let current := ⟨if current.len = 0 then i else current.start, current.len + 1⟩
      longestZeros (i + 1) current (if longest.len < current.len then current else longest) rest
    else longestZeros (i + 1) ⟨0, 0⟩ longest rest

def segmentsString (segments : List Nat) : String :=
  ":".intercalate (segments.map fun segment => String.ofList (Nat.toDigits 16 segment))

def segmentPairs : Bytes → List Nat
  | hi :: lo :: rest => (hi.toNat * 256 + lo.toNat) :: segmentPairs rest
  | _ => []

/-- The first longest run of two zero segments or more is left out. -/
def ipv6String (octets : Vector UInt8 16) : String :=
  let segments := segmentPairs octets.toList
  let zeros := longestZeros 0 ⟨0, 0⟩ ⟨0, 0⟩ segments
  if 1 < zeros.len then
    segmentsString (segments.take zeros.start) ++ "::" ++
      segmentsString (segments.drop (zeros.start + zeros.len))
  else segmentsString segments

/-- A v4-mapped address is shown as the address it maps. -/
def displayAddr : IpAddr → String
  | .v4 octets => ipv4String octets[0] octets[1] octets[2] octets[3]
  | .v6 octets =>
    if octets.toList.take 12 = .replicate 10 0 ++ [0xff, 0xff] then
      ipv4String octets[12] octets[13] octets[14] octets[15]
    else ipv6String octets

example : displayAddr (.v6 #v[0x20, 1, 0xd, 0xb8, 0, 0, 0, 0, 0, 1, 0, 0, 0, 0, 0, 1]) =
    "2001:db8::1:0:0:1" := by decide

def asMillis (d : Duration) : U64 := BitVec.ofNat 64 (d * 1000).floor.toNat

/-- Every event has its message; artwork goes out in base64. -/
def toMessage (encode : Bytes → String) : Event → Message
  | .sessionStarted rate channels peer => .sessionStarted rate channels (displayAddr peer)
  | .metadata title artist album => .metadata title artist album
  | .artwork contentType data => .artwork contentType (encode data)
  | .volume db => .volume db
  | .progress elapsed duration => .progress (asMillis elapsed) (asMillis duration)
  | .flushed => .flushed
  | .sessionEnded => .sessionEnded

/-! ## One client among others -/

/-- Where `serve_client` stands: before it subscribes, in the WebSocket handshake, about to
send a snapshot for the first time or after falling behind, or receiving changes. -/
inductive Phase where
  | connecting
  | handshake
  | greeting
  | lagged
  | serving
  deriving DecidableEq

/-- `half` is the message already in the snapshot and not yet in the channel, `received` all
the client was sent. -/
structure Service where
  snapshot : Snapshot
  half : Option Message
  sent : List Message
  phase : Phase
  cursor : Nat
  received : List Message
  deriving DecidableEq

def Service.new (name version : String) : Service where
  snapshot := { Snapshot.default with receiver := ⟨name, version⟩ }
  half := none
  sent := []
  phase := .connecting
  cursor := 0
  received := []

inductive Action where
  | apply (event : Event)
  | send (kept : Bool)
  | subscribe
  | handshake
  | snapshot
  | receive
  | lag
  deriving DecidableEq

/-- The two steps of `publish`, and those of the client's task. Without any reader the channel
drops what is sent to it. -/
inductive Step (encode : Bytes → String) (s : Service) : Action → Service → Prop where
  | apply {event : Event} : s.half = none →
    Step encode s (.apply event)
      { s with
        snapshot := s.snapshot.apply (toMessage encode event)
        half := some (toMessage encode event) }
  | send {m : Message} {kept : Bool} : s.half = some m → (s.phase ≠ .connecting → kept = true) →
    Step encode s (.send kept)
      { s with half := none, sent := if kept then s.sent ++ [m] else s.sent }
  | subscribe : s.phase = .connecting →
    Step encode s .subscribe { s with phase := .handshake, cursor := s.sent.length }
  | handshake : s.phase = .handshake → Step encode s .handshake { s with phase := .greeting }
  | snapshot : s.phase = .greeting ∨ s.phase = .lagged →
    Step encode s .snapshot
      { s with phase := .serving, received := s.received ++ [.snapshot s.snapshot] }
  | receive {m : Message} {cursor : Nat} : s.phase = .serving →
    recv channelCapacity s.sent s.cursor = some (.message m, cursor) →
      Step encode s .receive { s with cursor := cursor, received := s.received ++ [m] }
  | lag {missed cursor : Nat} : s.phase = .serving →
    recv channelCapacity s.sent s.cursor = some (.lagged missed, cursor) →
      Step encode s .lag { s with phase := .lagged, cursor := cursor }

/-! ## What every step keeps -/

/-- What is still to come for the client. -/
def Service.pending (s : Service) : List Message := s.sent.drop s.cursor ++ s.half.toList

/-- The snapshot ends with what is half published, from the subscription on with all that is
pending, and what the client was sent falls short of it by just that. -/
structure Sound (s : Service) : Prop where
  published : ∃ old, s.snapshot = Snapshot.fold old s.half.toList
  queued : s.phase ≠ .connecting → s.cursor ≤ s.sent.length ∧
    ∃ old, s.snapshot = Snapshot.fold old s.pending
  served : s.phase = .serving →
    (Snapshot.default.fold s.received).fold s.pending = s.snapshot

variable {encode : Bytes → String} {s s' : Service} {action : Action}

theorem sound_new (name version : String) : Sound (.new name version) where
  published := ⟨_, rfl⟩
  queued h := absurd rfl h
  served h := by cases h

theorem apply_pending {m : Message} (hhalf : s.half = none) :
    Service.pending { s with snapshot := s.snapshot.apply m, half := some m } =
      s.pending ++ [m] := by
  simp [Service.pending, hhalf]

theorem send_pending {m : Message} (hhalf : s.half = some m)
    (hcursor : s.cursor ≤ s.sent.length) :
    Service.pending { s with half := none, sent := s.sent ++ [m] } = s.pending := by
  simp [Service.pending, hhalf, List.drop_append_of_le_length hcursor]

theorem Sound.step (h : Sound s) (hstep : Step encode s action s') : Sound s' := by
  cases hstep with
  | @apply event hhalf =>
    have hpending := apply_pending (m := toMessage encode event) hhalf
    refine ⟨⟨s.snapshot, rfl⟩, ?_, ?_⟩
    · intro hphase
      obtain ⟨hcursor, old, hold⟩ := h.queued hphase
      refine ⟨hcursor, old, ?_⟩
      rw [hpending, Snapshot.fold_append, ← hold]
      rfl
    · intro hphase
      rw [hpending, Snapshot.fold_append, h.served hphase]
      rfl
  | @send m kept hhalf hkept =>
    refine ⟨⟨s.snapshot, rfl⟩, ?_, ?_⟩
    · intro hphase
      obtain ⟨hcursor, old, hold⟩ := h.queued hphase
      have hpending := send_pending hhalf hcursor
      simp only [hkept hphase, if_true, List.length_append] at hpending ⊢
      exact ⟨by omega, old, hold.trans (by rw [hpending])⟩
    · intro hphase
      have hconnected : s.phase ≠ .connecting := by
        rw [hphase]
        decide
      obtain ⟨hcursor, -⟩ := h.queued hconnected
      have hpending := send_pending hhalf hcursor
      simp only [hkept hconnected, if_true] at hpending ⊢
      rw [hpending]
      exact h.served hphase
  | subscribe hphase =>
    -- nothing is queued yet, and what is half published is in the snapshot
    refine ⟨h.published, ?_, fun hserving => by cases hserving⟩
    intro _
    obtain ⟨old, hold⟩ := h.published
    refine ⟨le_rfl, old, ?_⟩
    simpa [Service.pending] using hold
  | handshake hphase =>
    refine ⟨h.published, ?_, fun hserving => by cases hserving⟩
    intro _
    apply h.queued
    rw [hphase]
    decide
  | snapshot hphase =>
    have hconnected : s.phase ≠ .connecting := by
      intro hconnecting
      simp [hconnecting] at hphase
    obtain ⟨hcursor, old, hold⟩ := h.queued hconnected
    refine ⟨h.published, fun _ => ⟨hcursor, old, hold⟩, ?_⟩
    intro _
    -- what is pending is in the snapshot and comes again after it
    change (Snapshot.fold _ (s.received ++ [.snapshot s.snapshot])).fold s.pending = s.snapshot
    rw [Snapshot.fold_append, Snapshot.fold_cons, Snapshot.fold_nil]
    change s.snapshot.fold s.pending = s.snapshot
    rw [hold, Snapshot.fold_replay]
  | @receive m cursor hphase hrecv =>
    obtain ⟨hdrop, hlength⟩ := recv_message hrecv
    have hpending : s.pending = m :: Service.pending
        { s with cursor := cursor, received := s.received ++ [m] } := by
      simp only [Service.pending, hdrop, List.cons_append]
    refine ⟨h.published, ?_, ?_⟩
    · intro hconnected
      obtain ⟨-, old, hold⟩ := h.queued hconnected
      rw [hpending, Snapshot.fold_cons] at hold
      exact ⟨hlength, old.apply m, hold⟩
    · intro _
      have hserved := h.served hphase
      rw [hpending, Snapshot.fold_cons] at hserved
      rw [Snapshot.fold_append]
      exact hserved
  | @lag missed cursor hphase hrecv =>
    obtain ⟨⟨skipped, hdrop⟩, hlength⟩ := recv_lagged hrecv
    refine ⟨h.published, ?_, fun hserving => by cases hserving⟩
    intro _
    have hconnected : s.phase ≠ .connecting := by
      rw [hphase]
      decide
    obtain ⟨-, old, hold⟩ := h.queued hconnected
    refine ⟨hlength, old.fold skipped, ?_⟩
    rw [← Snapshot.fold_append]
    rw [hold, Service.pending, hdrop, List.append_assoc]
    rfl

theorem sound_run {name version : String} {actions : List Action}
    (hrun : Run (Step encode) (.new name version) actions s) : Sound s := by
  have hstep : ∀ s action s', Sound s → True → Step encode s action s' → Sound s' ∧ True :=
    fun _ _ _ h _ hstep => ⟨h.step hstep, trivial⟩
  exact (hrun.invariant hstep (sound_new name version) (fun _ _ => trivial)).1

/-! ## A client that has caught up -/

/-- With nothing left in the channel the client misses at most the message half published,
and nothing between two events. -/
theorem caught_up_snapshot (encode : Bytes → String) {name version : String}
    {actions : List Action} {s : Service}
    (hrun : Run (Step encode) (.new name version) actions s) (hphase : s.phase = .serving)
    (hend : recv channelCapacity s.sent s.cursor = none) :
    (Snapshot.default.fold s.received).fold s.half.toList = s.snapshot ∧
      (s.half = none → Snapshot.default.fold s.received = s.snapshot) := by
  have hserved := (sound_run hrun).served hphase
  rw [Service.pending, recv_none hend, List.nil_append] at hserved
  refine ⟨hserved, ?_⟩
  intro hhalf
  rw [hhalf] at hserved
  exact hserved

/-- A change between the subscription and the snapshot is in the snapshot and comes again. -/
def overlapped : Service where
  snapshot := ⟨⟨"Living Room", "1"⟩, none, none, some 3, none, none⟩
  half := none
  sent := [.volume 3]
  phase := .serving
  cursor := 1
  received :=
    [.snapshot ⟨⟨"Living Room", "1"⟩, none, none, some 3, none, none⟩, .volume 3]

theorem overlapped_run : Run (Step fun _ => "") (.new "Living Room" "1")
    [.subscribe, .apply (.volume 3), .handshake, .snapshot, .send true, .receive]
    overlapped := by
  apply Run.cons (.subscribe rfl)
  apply Run.cons (.apply rfl)
  apply Run.cons (.handshake rfl)
  apply Run.cons (.snapshot (.inl rfl))
  apply Run.cons (.send (m := .volume 3) rfl (fun _ => rfl))
  exact Run.single (.receive (m := .volume 3) rfl rfl)

theorem caught_up_snapshot_overlapped :
    Run (Step fun _ => "") (.new "Living Room" "1")
        [.subscribe, .apply (.volume 3), .handshake, .snapshot, .send true, .receive]
        overlapped ∧
      overlapped.phase = .serving ∧
      recv channelCapacity overlapped.sent overlapped.cursor = none ∧
      (Snapshot.default.fold overlapped.received).fold overlapped.half.toList =
        overlapped.snapshot ∧
      (overlapped.half = none →
        Snapshot.default.fold overlapped.received = overlapped.snapshot) :=
  ⟨overlapped_run, rfl, rfl, caught_up_snapshot _ overlapped_run rfl rfl⟩

def halfPublished : Service where
  snapshot := ⟨⟨"Living Room", "1"⟩, none, none, some 3, none, none⟩
  half := some (.volume 3)
  sent := []
  phase := .serving
  cursor := 0
  received := [.snapshot ⟨⟨"Living Room", "1"⟩, none, none, none, none, none⟩]

theorem halfPublished_run : Run (Step fun _ => "") (.new "Living Room" "1")
    [.subscribe, .handshake, .snapshot, .apply (.volume 3)] halfPublished := by
  apply Run.cons (.subscribe rfl)
  apply Run.cons (.handshake rfl)
  apply Run.cons (.snapshot (.inl rfl))
  exact Run.single (.apply rfl)

/-- Between the two steps of a publish the snapshot is ahead of a client that has nothing
left to receive. -/
theorem half_published_differs :
    ∃ actions s, Run (Step fun _ => "") (.new "Living Room" "1") actions s ∧
      s.phase = .serving ∧ recv channelCapacity s.sent s.cursor = none ∧
      Snapshot.default.fold s.received ≠ s.snapshot :=
  ⟨_, _, halfPublished_run, by decide⟩

end OpenAirplay.Dashboard
