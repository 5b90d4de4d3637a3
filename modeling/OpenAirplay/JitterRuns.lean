import OpenAirplay.JitterStream

/-!
# Whole runs of the jitter buffer

Every interleaving of inserts, deliveries and resets. `Faithful` is what a segment
between two resets promises to its reader; `gap_skipped_iff` says when a gap the sender
never fills lets the stream go on, and `CaughtUp` is the state packets arriving in order
keep the buffer in.
-/

namespace OpenAirplay.Jitter

open SerialNumber Reassembly

set_option autoImplicit false

variable {F : Type}

/-- The invariant of a segment, before and after its first packet. -/
def Segment.Tracks (seg : Segment F) : Prop :=
  match seg.start with
  | none => seg.log = [] ∧ seg.buffer.nextSeq = none ∧ seg.buffer.highestSeq = none ∧
      ∀ s, seg.buffer.lookup s = none
  | some base => TracksFrom base seg.buffer seg.log

namespace Segment

variable {seg : Segment F} {lead : Nat}

theorem tracks_start {base : U16} (h : seg.Tracks) (hs : seg.start = some base) :
    TracksFrom base seg.buffer seg.log := by
  simpa [Tracks, hs] using h

theorem tracks_reset (jb : JitterBuffer F) (start : Option U16) :
    (⟨jb.reset start, start, []⟩ : Segment F).Tracks := by
  cases start with
  | none => simp [Tracks, JitterBuffer.reset, JitterBuffer.lookup]
  | some base => exact tracksFrom_nil rfl rfl (JitterBuffer.lookup_reset jb _)

theorem tracks_fresh (h : lead < capacity) : (fresh lead h : Segment F).Tracks := by
  refine ⟨rfl, rfl, rfl, ?_⟩
  exact JitterBuffer.lookup_new lead h

theorem tracks_first_insert (h : seg.Tracks) (hs : seg.start = none) (seq : U16) (f : F) :
    (seg.call (.insert seq f)).Tracks := by
  simp only [Tracks, hs] at h
  obtain ⟨hlog, hnext, hhigh, hslots⟩ := h
  have hacc := JitterBuffer.accepts_of_nextSeq_none hnext seq
  set anchored : JitterBuffer F := { seg.buffer with nextSeq := some seq } with hanchored
  have hins : seg.buffer.insert seq f = anchored.insert seq f := by
    simp [JitterBuffer.insert, hnext, hanchored]
  have hacc' : anchored.Accepts seq := by
    simpa [JitterBuffer.Accepts, hnext, hanchored] using hacc
  have ht : TracksFrom seq anchored [] := tracksFrom_nil rfl hhigh hslots
  have h0 := ht.accept hacc' f
  have hahead : anchored.ahead seq = seg.buffer.ahead seq := by
    simp [JitterBuffer.ahead, hnext, hanchored]
  simp only [call, Tracks, hs, hacc, hlog, hins, if_true, Option.getD_none]
  simpa [hahead, deliveries, events] using h0

theorem tracks_call (h : seg.Tracks) (c : Call F) : (seg.call c).Tracks := by
  cases c with
  | insert seq f =>
    cases hs : seg.start with
    | none => exact tracks_first_insert h hs seq f
    | some base =>
      have ht := tracks_start h hs
      simp only [call, Tracks, hs, Option.getD_some]
      by_cases hacc : seg.buffer.Accepts seq
      · rw [if_pos hacc, ← next_events]
        exact ht.accept hacc f
      · rw [if_neg hacc, ht.insert_dropped hacc f]
        exact ht
  | popReady =>
    cases hs : seg.start with
    | none =>
      simp only [Tracks, hs] at h
      obtain ⟨hlog, hnext, hhigh, hslots⟩ := h
      simp [call, Tracks, hs, JitterBuffer.popReady, hlog, hnext, hhigh, hslots]
    | some base =>
      simp only [call, Tracks, hs]
      exact (tracks_start h hs).popReady.1
  | reset start => exact tracks_reset seg.buffer start

theorem tracks_run (h : seg.Tracks) (calls : List (Call F)) : (seg.run calls).Tracks := by
  induction calls generalizing seg with
  | nil => exact h
  | cons c calls ih => exact ih (tracks_call h c)

theorem maxLead_run (seg : Segment F) (calls : List (Call F)) :
    (seg.run calls).buffer.maxLead = seg.buffer.maxLead := by
  induction calls generalizing seg with
  | nil => rfl
  | cons c calls ih =>
    rw [run, List.foldl_cons, ← run, ih]
    cases c with
    | insert seq f => exact JitterBuffer.insert_maxLead _ _ _
    | popReady => exact JitterBuffer.popReady_maxLead _
    | reset start => rfl

end Segment

/-- What one segment promises its reader, `lead` being the force-skip threshold. -/
structure Faithful (lead : Nat) (seg : Segment F) : Prop where
  /-- Deliveries are numbered consecutively from the start of the segment. -/
  consecutive : ∀ i d, (deliveries seg.log)[i]? = some d →
    ∃ base, seg.start = some base ∧ d.seq = place base i
  /-- An accepted packet is filed under the stream position its number names. -/
  filed : ∀ pre pos seq f post, seg.log = pre ++ .accepted pos seq f :: post →
    (∃ base, seg.start = some base ∧ seq = place base pos) ∧
      (deliveries pre).length ≤ pos ∧ pos < (deliveries pre).length + capacity
  /-- A delivered packet is the latest accepted for its position since the reset. -/
  packets : ∀ pre seq f post, seg.log = pre ++ .delivered (.packet seq f) :: post →
    latest (deliveries pre).length (events pre) = some f
  /-- Only a position without a packet, `lead` behind the highest, is lost. -/
  losses : ∀ pre seq post, seg.log = pre ++ .delivered (.lost seq) :: post →
    latest (deliveries pre).length (events pre) = none ∧
      Reached (events pre) ((deliveries pre).length + lead)
  /-- The latest frame of every position is delivered at that position or still buffered. -/
  kept : ∀ p f, latest p (events seg.log) = some f → ∃ base, seg.start = some base ∧
    ((p < (deliveries seg.log).length ∧
        (deliveries seg.log)[p]? = some (.packet (place base p) f)) ∨
      ((deliveries seg.log).length ≤ p ∧ seg.buffer.lookup (place base p) = some f))
  /-- Nothing else is buffered: no delivered, overwritten or pre-reset frame. -/
  buffered : ∀ s f, seg.buffer.lookup s = some f → ∃ base p, seg.start = some base ∧
    slot s = slot (place base p) ∧ (deliveries seg.log).length ≤ p ∧
      latest p (events seg.log) = some f

theorem slot_surjective (base s : U16) (n : Nat) :
    ∃ p, n ≤ p ∧ p < n + capacity ∧ slot s = slot (place base p) := by
  refine ⟨n + (s.toNat + capacity - (base.toNat + n) % capacity) % capacity, by omega, ?_, ?_⟩
  · simp only [capacity]
    omega
  · apply Fin.ext
    rw [slot_place]
    simp only [slot, capacity]
    omega

theorem TracksFrom.delivery_at {base : U16} {jb : JitterBuffer F} {log : List (Entry F)}
    (h : TracksFrom base jb log) {i : Nat} {d : Delivery F}
    (hd : (deliveries log)[i]? = some d) :
    d.seq = place base i ∧ d.frame? = latest i (events log) := by
  have hi : i < next (events log) := by
    rw [next_events]
    exact (List.getElem?_eq_some_iff.mp hd).1
  have hseq := congrArg (·[i]?) h.seqs
  have hframe := h.lawful.outcome_at hi
  rw [outcomes_events] at hframe
  simp only [List.getElem?_map, hd, Option.map_some, List.getElem?_range hi] at hseq hframe
  exact ⟨Option.some.inj hseq, Option.some.inj hframe⟩

theorem Segment.Tracks.allowed {seg : Segment F} (h : seg.Tracks) {pre post : List (Entry F)}
    {e : Entry F} (hlog : seg.log = pre ++ e :: post) :
    (∃ base, seg.start = some base ∧ TracksFrom base seg.buffer seg.log) ∧
      Allowed capacity seg.buffer.maxLead (events pre) e.event := by
  cases hs : seg.start with
  | none =>
    simp only [Segment.Tracks, hs] at h
    simp [hlog] at h
  | some base =>
    have ht := Segment.tracks_start h hs
    refine ⟨⟨base, rfl, ht⟩, ht.lawful _ _ (events post) ?_⟩
    simp [hlog, events]

theorem Segment.Tracks.faithful {seg : Segment F} (h : seg.Tracks) :
    Faithful seg.buffer.maxLead seg := by
  have hstart : seg.log ≠ [] → ∃ base, seg.start = some base ∧
      TracksFrom base seg.buffer seg.log := by
    intro hne
    obtain ⟨e, post, hlog⟩ := List.exists_cons_of_ne_nil hne
    rw [← List.nil_append (e :: post)] at hlog
    exact (h.allowed hlog).1
  refine ⟨?_, ?_, ?_, ?_, ?_, ?_⟩
  · intro i d hd
    obtain ⟨base, hs, ht⟩ := hstart (by rintro hnil; simp [hnil, deliveries] at hd)
    exact ⟨base, hs, (ht.delivery_at hd).1⟩
  · intro pre pos seq f post hlog
    obtain ⟨⟨base, hs, ht⟩, hlo, hhi⟩ := h.allowed hlog
    rw [next_events] at hlo hhi
    exact ⟨⟨base, hs, ht.placed pos seq f (by simp [hlog])⟩, hlo, hhi⟩
  · intro pre seq f post hlog
    obtain ⟨_, ha⟩ := h.allowed hlog
    rwa [← next_events]
  · intro pre seq post hlog
    obtain ⟨_, ha⟩ := h.allowed hlog
    rwa [← next_events]
  · intro p f hp
    obtain ⟨base, hs, ht⟩ := hstart (by rintro hnil; simp [hnil, events] at hp)
    refine ⟨base, hs, ?_⟩
    rw [← next_events]
    by_cases hlt : p < next (events seg.log)
    · left
      refine ⟨hlt, ?_⟩
      have hlen : p < (deliveries seg.log).length := by rwa [← next_events]
      obtain ⟨hseq, hframe⟩ := ht.delivery_at (List.getElem?_eq_getElem hlen)
      rw [List.getElem?_eq_getElem hlen]
      rw [hp] at hframe
      cases hd : (deliveries seg.log)[p] with
      | packet s g =>
        rw [hd] at hseq hframe
        simp only [Delivery.seq, Delivery.frame?, Option.some.injEq] at hseq hframe
        rw [hseq, hframe]
      | lost s =>
        rw [hd] at hframe
        simp [Delivery.frame?] at hframe
    · right
      have hmem := accept_mem_of_latest hp
      have hhi : p < next (events seg.log) + capacity := by
        rcases ht.highest with ⟨_, hno⟩ | ⟨top, _, hist, _, hhi⟩
        · exact absurd hmem (hno p f)
        · exact Nat.lt_of_le_of_lt (hist.le p f hmem) hhi
      exact ⟨by omega, (ht.window p (by omega) hhi).trans hp⟩
  · intro s f hl
    cases hs : seg.start with
    | none =>
      simp only [Segment.Tracks, hs] at h
      simp [h.2.2.2 s] at hl
    | some base =>
      have ht := Segment.tracks_start h hs
      obtain ⟨p, hlo, hhi, hslot⟩ := slot_surjective base s (next (events seg.log))
      refine ⟨base, p, rfl, hslot, by rwa [← next_events], ?_⟩
      rw [← ht.window p hlo hhi, ← hl]
      simp only [JitterBuffer.lookup, hslot]

theorem Segment.Tracks.accepted_of_delivered {seg : Segment F} (h : seg.Tracks) {seq : U16} {f : F}
    (hd : Delivery.packet seq f ∈ deliveries seg.log) :
    ∃ pos, Entry.accepted pos seq f ∈ seg.log := by
  obtain ⟨i, hi⟩ := List.mem_iff_getElem?.mp hd
  cases hs : seg.start with
  | none =>
    simp only [Segment.Tracks, hs] at h
    simp [h.1, deliveries] at hd
  | some base =>
    have ht := Segment.tracks_start h hs
    obtain ⟨hseq, hframe⟩ := ht.delivery_at hi
    obtain ⟨e, he, hev⟩ := List.mem_map.mp (accept_mem_of_latest hframe.symm)
    cases e with
    | delivered d => cases hev
    | accepted pos s g =>
      simp only [Entry.event, Reassembly.Event.accept.injEq] at hev
      obtain ⟨rfl, rfl⟩ := hev
      rw [ht.placed _ _ _ he, ← hseq] at he
      exact ⟨_, he⟩

theorem Segment.Tracks.popReady_idle {seg : Segment F} (h : seg.Tracks) :
    seg.buffer.popReady.2.popReady = ([], seg.buffer.popReady.2) := by
  cases hs : seg.start with
  | none =>
    simp only [Segment.Tracks, hs] at h
    simp [JitterBuffer.popReady, h.2.2.1]
  | some base =>
    obtain ⟨ht, hready⟩ := (Segment.tracks_start h hs).popReady
    exact ht.popReady_eq_nil (by rwa [JitterBuffer.popReady_maxLead])

/-- Between two resets the buffer is a faithful in-order reassembler, whatever the calls. -/
theorem buffer_faithful (lead : Nat) (h : lead < capacity) (calls : List (Call F)) :
    Faithful lead ((Segment.fresh lead h).run calls) := by
  have ht := Segment.tracks_run (Segment.tracks_fresh h) calls
  have hlead := Segment.maxLead_run (Segment.fresh lead h) calls
  have hf := ht.faithful
  rw [hlead] at hf
  exact hf

/-- One missing packet, a late one and a reset at a ring of lead 4. -/
theorem buffer_faithful_forced_skip : Faithful 4 ((Segment.fresh 4 (by decide)).run
    [.insert 10 "a", .popReady, .insert 12 "c", .insert 13 "d", .insert 14 "e", .insert 15 "f",
      .popReady, .insert 11 "b", .reset (some 40), .insert 40 "g", .popReady]) :=
  buffer_faithful 4 (by decide) _

/-! ## Gaps that are never filled -/

/-- One packet as the audio task takes it: insert, then release what is ready. -/
def JitterBuffer.arrive (jb : JitterBuffer F) (seq : U16) (frame : F) :
    List (Delivery F) × JitterBuffer F :=
  (jb.insert seq frame).popReady

/-- Packets numbered consecutively from `seq`, arriving in order. -/
def JitterBuffer.arriveAll : JitterBuffer F → U16 → List F → List (Delivery F) × JitterBuffer F
  | jb, _, [] => ([], jb)
  | jb, seq, frame :: frames =>
    let (out, jb') := jb.arrive seq frame
    let (out', jb'') := jb'.arriveAll (seq + 1) frames
    (out ++ out', jb'')

/-- The loop of `popReady` can settle `next` in this state. -/
def JitterBuffer.FrontReady (jb : JitterBuffer F) (next : U16) : Prop :=
  jb.lookup next ≠ none ∨ ∃ highest, jb.highestSeq = some highest ∧
    (jb.maxLead : Int) ≤ seqDiff highest next

theorem JitterBuffer.arrive_map {G : Type} (f : F → G) (jb : JitterBuffer F) (seq : U16) (x : F) :
    (jb.map f).arrive seq (f x) =
      ((jb.arrive seq x).1.map (Delivery.map f), (jb.arrive seq x).2.map f) := by
  rw [arrive, insert_map, popReady_map]
  rfl

namespace TracksFrom

variable {base : U16} {jb : JitterBuffer F} {log : List (Entry F)}

theorem frontReady_iff (h : TracksFrom base jb log) :
    jb.FrontReady (place base (next (events log))) ↔ Ready jb.maxLead (events log) := by
  unfold JitterBuffer.FrontReady Ready
  rw [h.window _ (Nat.le_refl _) (by simp [capacity])]
  apply or_congr Iff.rfl
  rcases h.highest with ⟨hnone, hno⟩ | ⟨top, htop, hist, _, _⟩
  · constructor
    · rintro ⟨highest, hh, _⟩
      simp [hnone] at hh
    · rintro ⟨q, f, hq, _⟩
      exact absurd hq (hno q f)
  · rw [hist.reached_iff]
    constructor
    · rintro ⟨highest, hh, hle⟩
      rw [h.seqDiff_highest hist hh] at hle
      omega
    · intro hle
      refine ⟨_, htop, ?_⟩
      rw [h.seqDiff_highest hist htop]
      omega

theorem accepts_ahead (h : TracksFrom base jb log) {g : Nat} (hg : g < 2 ^ 16) :
    jb.Accepts (place base (next (events log) + g)) ↔ g < capacity := by
  simp only [JitterBuffer.Accepts, h.nextSeq, Option.getD_some, seqDiff]
  by_cases hhalf : g < 2 ^ 15
  · rw [diff_place_of_half base (by omega) (by omega)]
    omega
  · rw [diff_place_of_wrapped base (by omega) (by omega)]
    simp only [capacity]
    omega

theorem ahead_place (h : TracksFrom base jb log) {g : Nat} (hg : g < capacity) :
    jb.ahead (place base (next (events log) + g)) = g := by
  simp only [capacity] at hg
  simp only [JitterBuffer.ahead, h.nextSeq, Option.getD_some, seqDiff]
  rw [diff_place_of_half base (by omega) (by omega)]
  omega

theorem lead_of_silent (h : TracksFrom base jb log) {g : Nat} {frames : List F}
    (hsilent : (jb.arriveAll (place base (next (events log) + g)) frames).1 = [])
    {i : Nat} (hi : i < frames.length) (hring : g + i < capacity) : g + i < jb.maxLead := by
  induction frames generalizing jb log g i with
  | nil => simp at hi
  | cons f frames ih =>
    simp only [JitterBuffer.arriveAll, List.append_eq_nil_iff] at hsilent
    obtain ⟨hout, hrest⟩ := hsilent
    have hg : g < capacity := by omega
    have hacc := (h.accepts_ahead (by simp only [capacity] at hg; omega)).mpr hg
    have ht := h.accept hacc f
    rw [h.ahead_place hg] at ht
    have hready := ht.popReady_nil_iff.mp hout
    rw [JitterBuffer.insert_maxLead] at hready
    cases i with
    | zero =>
      by_contra hlead
      apply hready
      right
      rw [events_append, events_accepted, next_accept]
      exact (reached_accept (next (events log) + g) f).mono (by omega)
    | succ i =>
      have hjb : (jb.arrive (place base (next (events log) + g)) f).2 =
          jb.insert (place base (next (events log) + g)) f := by
        rw [JitterBuffer.arrive, ht.popReady_eq_nil (by simpa using hready)]
      rw [hjb, ← place_succ] at hrest
      have hih := ih (g := g + 1) (i := i) ht (by simpa [Nat.add_assoc] using hrest)
        (by simpa using hi) (by omega)
      rw [JitterBuffer.insert_maxLead] at hih
      omega

theorem silent_beyond_ring (h : TracksFrom base jb log) (hready : ¬Ready jb.maxLead (events log))
    {g : Nat} {frames : List F} (hlo : capacity ≤ g) (hhi : g + frames.length ≤ 2 ^ 16) :
    (jb.arriveAll (place base (next (events log) + g)) frames).1 = [] := by
  induction frames generalizing g with
  | nil => rfl
  | cons f frames ih =>
    rw [List.length_cons] at hhi
    have hdrop : ¬jb.Accepts (place base (next (events log) + g)) := by
      rw [h.accepts_ahead (by omega)]
      omega
    have harrive : jb.arrive (place base (next (events log) + g)) f = ([], jb) := by
      rw [JitterBuffer.arrive, h.insert_dropped hdrop, h.popReady_eq_nil hready]
    simp only [JitterBuffer.arriveAll, harrive, List.nil_append, ← place_succ]
    exact ih (g := g + 1) (by omega) (by omega)

theorem arrive_ready (h : TracksFrom base jb log) (hready : Ready jb.maxLead (events log))
    (seq : U16) (f : F) : (jb.arrive seq f).1 ≠ [] := by
  by_cases hacc : jb.Accepts seq
  · have ht := h.accept hacc f
    intro hnil
    apply ht.popReady_nil_iff.mp hnil
    rw [JitterBuffer.insert_maxLead, events_append, events_accepted]
    exact hready.accept _ f
  · rw [JitterBuffer.arrive, h.insert_dropped hacc]
    exact fun hnil => h.popReady_nil_iff.mp hnil hready

end TracksFrom

theorem Segment.Tracks.popReady_of_not_frontReady {seg : Segment F} (h : seg.Tracks) {next : U16}
    (hnext : seg.buffer.nextSeq = some next) (hfront : ¬seg.buffer.FrontReady next) :
    seg.buffer.popReady = ([], seg.buffer) := by
  cases hs : seg.start with
  | none =>
    simp only [Segment.Tracks, hs] at h
    simp [h.2.1] at hnext
  | some base =>
    have ht := Segment.tracks_start h hs
    have hplace : next = place base (Reassembly.next (events seg.log)) :=
      Option.some.inj (hnext.symm.trans ht.nextSeq)
    rw [hplace, ht.frontReady_iff] at hfront
    exact ht.popReady_eq_nil hfront

/-- A gap of `g` packets that is never filled stalls the stream only when the packets after
it fall outside the ring: then each is dropped, and the front stays as it was. -/
theorem gap_skipped_iff (lead : Nat) (h : lead < capacity) (calls : List (Call F)) (n : U16)
    (g : Nat) (frames : List F)
    (hnext : ((Segment.fresh lead h).run calls).buffer.nextSeq = some n) (hg : g < 2 ^ 15)
    (hframes : frames.length = lead + 1) :
    (((Segment.fresh lead h).run calls).buffer.arriveAll (place n g) frames).1 ≠ [] ↔
      g < capacity ∨ ((Segment.fresh lead h).run calls).buffer.FrontReady n := by
  have htracks := Segment.tracks_run (Segment.tracks_fresh h) calls
  have hlead := Segment.maxLead_run (Segment.fresh lead h) calls
  set seg := (Segment.fresh lead h).run calls with hseg
  change seg.buffer.maxLead = lead at hlead
  cases hs : seg.start with
  | none =>
    simp only [Segment.Tracks, hs] at htracks
    simp [htracks.2.1] at hnext
  | some base =>
    have ht := Segment.tracks_start htracks hs
    have hn : n = place base (next (events seg.log)) :=
      Option.some.inj (hnext.symm.trans ht.nextSeq)
    subst hn
    rw [ht.frontReady_iff, ← place_add]
    constructor
    · intro hout
      by_contra hcon
      rw [not_or] at hcon
      simp only [capacity] at h hcon
      exact hout (ht.silent_beyond_ring hcon.2 (by simp only [capacity]; omega) (by omega))
    · rintro (hring | hready) hnil
      · have hlt := ht.lead_of_silent hnil (i := lead - g) (by omega) (by omega)
        omega
      · obtain ⟨f, rest, rfl⟩ := List.exists_cons_of_length_eq_add_one hframes
        simp only [JitterBuffer.arriveAll, List.append_eq_nil_iff] at hnil
        exact ht.arrive_ready hready _ f hnil.1

theorem gap_skipped_one :
    (((Segment.fresh 2 (by decide)).run [.insert 7 "a", .popReady]).buffer.arriveAll (place 8 1)
      ["b", "c", "d"]).1 ≠ [] ↔ 1 < capacity ∨
        ((Segment.fresh 2 (by decide)).run [.insert 7 "a", .popReady]).buffer.FrontReady 8 :=
  gap_skipped_iff 2 (by decide) [.insert 7 "a", .popReady] 8 1 ["b", "c", "d"] (by decide)
    (by decide) rfl

/-- An outage of 600 packets after one delivery: nothing comes out of the next
`maxLead + 1` packets. -/
theorem outage_stalls :
    ((Segment.fresh maxLead (by decide)).run [.insert 0 "a", .popReady]).buffer.nextSeq = some 1 ∧
      600 < 2 ^ 15 ∧ (List.replicate (maxLead + 1) "b").length = maxLead + 1 ∧
      (((Segment.fresh maxLead (by decide)).run [.insert 0 "a", .popReady]).buffer.arriveAll
        (place 1 600) (List.replicate (maxLead + 1) "b")).1 = [] := by
  refine ⟨by decide, by decide, List.length_replicate, ?_⟩
  decide +kernel

/-! ## Packets in order -/

/-- Everything before position `n` is settled and nothing from `n` on has arrived. -/
def CaughtUp (base : U16) (n : Nat) (jb : JitterBuffer F) : Prop :=
  ∃ log, TracksFrom base jb log ∧ next (events log) = n ∧ ¬Reached (events log) n

namespace CaughtUp

variable {base : U16} {n : Nat} {jb : JitterBuffer F} {log : List (Entry F)}

theorem not_ready {lead : Nat} (h : ¬Reached (events log) (next (events log))) :
    ¬Ready lead (events log) := by
  rintro (hl | hr)
  · obtain ⟨f, hf⟩ := Option.ne_none_iff_exists'.mp hl
    exact h ⟨_, f, accept_mem_of_latest hf, Nat.le_refl _⟩
  · exact h (hr.mono (by omega))

theorem popReady (h : CaughtUp base n jb) : jb.popReady = ([], jb) := by
  obtain ⟨log, ht, rfl, hreached⟩ := h
  exact ht.popReady_eq_nil (not_ready hreached)

theorem of_front (h : TracksFrom base jb log) {f : F}
    (hfront : latest (next (events log)) (events log) = some f)
    (hbeyond : ¬Reached (events log) (next (events log) + 1)) :
    jb.popReady.1 = [.packet (place base (next (events log))) f] ∧
      CaughtUp base (next (events log) + 1) jb.popReady.2 := by
  obtain ⟨highest, hhigh⟩ : ∃ highest, jb.highestSeq = some highest := by
    rcases h.highest with ⟨_, hno⟩ | ⟨top, htop, _⟩
    · exact absurd (accept_mem_of_latest hfront) (hno _ f)
    · exact ⟨_, htop⟩
  have hlook : jb.lookup (place base (next (events log))) = some f :=
    (h.window _ (Nat.le_refl _) (by simp [capacity])).trans hfront
  have hstep : ∃ jb',
      jb.popStep highest = some (.packet (place base (next (events log))) f, jb') := by
    simp [JitterBuffer.popStep, h.nextSeq, hlook]
  obtain ⟨jb', hstep⟩ := hstep
  obtain ⟨hout, hhigh', -⟩ := h.popStep hhigh hstep
  have hnext : next (events (log ++ [.delivered (.packet (place base (next (events log))) f)])) =
      next (events log) + 1 := by
    rw [events_append, events_delivered, next_deliver]
  have hreached : ¬Reached (events (log ++ [.delivered (.packet (place base (next (events log))) f)]))
      (next (events log) + 1) := by
    rintro ⟨q, g, hq, hle⟩
    exact hbeyond ⟨q, g, by simpa using hq, hle⟩
  have hstop := (hout.popStep_eq_none hhigh').mpr (not_ready (by rwa [hnext]))
  have hpop : jb.popReady = ([.packet (place base (next (events log))) f], jb') := by
    simp [JitterBuffer.popReady, hhigh, JitterBuffer.popLoop, hstep, hstop]
  rw [hpop]
  exact ⟨rfl, _, hout, hnext, hreached⟩

/-- The next packet goes straight through. -/
theorem arrive (h : CaughtUp base n jb) (f : F) :
    (jb.arrive (place base n) f).1 = [.packet (place base n) f] ∧
      CaughtUp base (n + 1) (jb.arrive (place base n) f).2 := by
  obtain ⟨log, ht, rfl, hreached⟩ := h
  have hacc : jb.Accepts (place base (next (events log))) := by
    simpa using (ht.accepts_ahead (g := 0) (by decide)).mpr (by decide)
  have hin := ht.accept hacc f
  have hahead : jb.ahead (place base (next (events log))) = 0 := by
    simpa using ht.ahead_place (g := 0) (by decide)
  have hnext := next_accept (events log) (next (events log)) f
  have hfront := latest_accept (next (events log)) (next (events log)) f (events log)
  have hbeyond : ¬Reached (events log ++ [.accept (next (events log)) f])
      (next (events log) + 1) := by
    rintro ⟨q, g, hq, hle⟩
    simp only [List.mem_append, List.mem_singleton, Reassembly.Event.accept.injEq] at hq
    rcases hq with hq | hq
    · exact hreached ⟨q, g, hq, by omega⟩
    · omega
  rw [hahead, Nat.add_zero] at hin
  have h := of_front (f := f) hin
  simp only [events_append, events_accepted, hnext, hfront, if_true] at h
  exact h trivial hbeyond

end CaughtUp

/-- Caught up at position `n`, or still waiting for the first packet. -/
def InStep (base : U16) (n : Nat) (jb : JitterBuffer F) : Prop :=
  CaughtUp base n jb ∨
    n = 0 ∧ jb.nextSeq = none ∧ jb.highestSeq = none ∧ ∀ s, jb.lookup s = none

namespace InStep

variable {base : U16} {n : Nat} {jb : JitterBuffer F}

theorem new {lead : Nat} (h : lead < capacity) : InStep base 0 (.new lead h : JitterBuffer F) :=
  Or.inr ⟨rfl, rfl, rfl, JitterBuffer.lookup_new lead h⟩

theorem popReady (h : InStep base n jb) : jb.popReady = ([], jb) := by
  rcases h with hcaught | ⟨_, _, hhigh, _⟩
  · exact hcaught.popReady
  · simp [JitterBuffer.popReady, hhigh]

/-- The next packet goes straight through; the first one anchors the buffer at itself. -/
theorem arrive (h : InStep base n jb) (f : F) :
    (jb.arrive (place base n) f).1 = [.packet (place base n) f] ∧
      InStep base (n + 1) (jb.arrive (place base n) f).2 := by
  rcases h with hcaught | ⟨rfl, hnext, hhigh, hslots⟩
  · obtain ⟨hout, hcaught'⟩ := hcaught.arrive f
    exact ⟨hout, Or.inl hcaught'⟩
  · set anchored : JitterBuffer F := { jb with nextSeq := some base } with hanchored
    have hins : jb.insert base f = anchored.insert base f := by
      simp [JitterBuffer.insert, hnext, hanchored]
    have hcaught : CaughtUp base 0 anchored := by
      refine ⟨[], tracksFrom_nil rfl hhigh hslots, rfl, ?_⟩
      rintro ⟨q, g, hq, _⟩
      simp [events] at hq
    obtain ⟨hout, hcaught'⟩ := hcaught.arrive f
    rw [place_zero] at hout hcaught' ⊢
    rw [JitterBuffer.arrive, hins]
    exact ⟨hout, Or.inl hcaught'⟩

end InStep

end OpenAirplay.Jitter
