import OpenAirplay.JitterRuns

/-!
# The gaps reported for retransmission

`missing` walks from the next to the highest sequence number. The two are never more than a
ring apart, so the walk is short and no slot it looks at stands for another number.
-/

namespace OpenAirplay.Jitter

open SerialNumber Reassembly

set_option autoImplicit false

variable {F : Type}

/-- The walk from `next` to `highest` ends after `n` turns. -/
structure Walks (next highest : U16) (n : Nat) : Prop where
  goesOn : ∀ k < n, 0 ≤ seqDiff highest (place next k)
  ends : seqDiff highest (place next n) < 0

theorem Walks.tail {next highest : U16} {n : Nat} (h : Walks next highest (n + 1)) :
    Walks (next + 1) highest n := by
  constructor
  · intro k hk
    rw [place_of_succ]
    exact h.goesOn (k + 1) (by omega)
  · rw [place_of_succ]
    exact h.ends

theorem walks_place (base : U16) {n top : Nat} (hlo : n ≤ top + 1) (hhi : top < n + capacity) :
    Walks (place base n) (place base top) (top + 1 - n) := by
  have hdiff : ∀ k ≤ top + 1 - n,
      seqDiff (place base top) (place (place base n) k) = (top : Int) - (n + k : Nat) := by
    intro k hk
    simp only [capacity] at hhi
    rw [← place_add]
    exact diff_place_of_half base (by omega) (by omega)
  constructor
  · intro k hk
    rw [hdiff k (by omega)]
    omega
  · rw [hdiff _ (le_refl _)]
    omega

/-- The loop reports the numbers it passes whose slot is empty. -/
theorem JitterBuffer.missingLoop_eq (jb : JitterBuffer F) {next highest : U16} {n fuel : Nat}
    (h : Walks next highest n) (hfuel : n < fuel) :
    jb.missingLoop highest fuel next =
      ((List.range n).map (place next)).filter fun seq => (jb.lookup seq).isNone := by
  induction n generalizing next fuel with
  | zero =>
    obtain ⟨fuel, rfl⟩ : ∃ m, fuel = m + 1 := ⟨fuel - 1, by omega⟩
    have hends := h.ends
    rw [place_zero] at hends
    rw [missingLoop, if_neg (by omega)]
    rfl
  | succ n ih =>
    obtain ⟨fuel, rfl⟩ : ∃ m, fuel = m + 1 := ⟨fuel - 1, by omega⟩
    have hfirst := h.goesOn 0 (by omega)
    rw [place_zero] at hfirst
    have hrest : (List.range n).map (place (next + 1)) =
        ((List.range n).map Nat.succ).map (place next) := by
      rw [List.map_map]
      exact List.map_congr_left fun k _ => place_of_succ next k
    rw [missingLoop, if_pos hfirst, ih h.tail (by omega), hrest, List.range_succ_eq_map,
      List.map_cons, place_zero, List.filter_cons]

/-- No packet was accepted for the position since the reset. -/
def Unfilled (log : List (Entry F)) (pos : Nat) : Prop :=
  ∀ seq frame, Entry.accepted pos seq frame ∉ log

theorem unfilled_iff {log : List (Entry F)} {pos : Nat} :
    Unfilled log pos ↔ latest pos (events log) = none := by
  constructor
  · intro h
    cases hlatest : latest pos (events log) with
    | none => rfl
    | some f =>
      obtain ⟨e, he, hev⟩ := List.mem_map.mp (accept_mem_of_latest hlatest)
      cases e with
      | delivered d => cases hev
      | accepted q s g =>
        cases hev
        exact absurd he (h s f)
  · intro h seq frame hmem
    have hevent : Reassembly.Event.accept pos frame ∈ events log :=
      List.mem_map.mpr ⟨_, hmem, rfl⟩
    exact latest_ne_none_of_mem hevent h

namespace TracksFrom

variable {base : U16} {jb : JitterBuffer F} {log : List (Entry F)}

/-- The gaps are the unfilled positions from the next to the highest accepted. -/
theorem missing (h : TracksFrom base jb log) {highest : U16}
    (hhigh : jb.highestSeq = some highest) :
    ∃ n ≤ capacity, Walks (place base (next (events log))) highest n ∧
      place (place base (next (events log))) n = highest + 1 ∧
      (0 < n → IsTop (events log) (next (events log) + (n - 1))) ∧
      jb.missing = ((List.range n).map (place (place base (next (events log))))).filter
        (fun seq => (jb.lookup seq).isNone) ∧
      ∀ k < n, jb.lookup (place (place base (next (events log))) k) = none ↔
        Unfilled log (next (events log) + k) := by
  rcases h.highest with ⟨hnone, _⟩ | ⟨top, htop, hist, hlo, hhi⟩
  · rw [hnone] at hhigh
    cases hhigh
  · obtain rfl := Option.some.inj (hhigh.symm.trans htop)
    have hwalks := walks_place base hlo hhi
    refine ⟨top + 1 - next (events log), by omega, hwalks, ?_, ?_, ?_, ?_⟩
    · rw [← place_add, ← place_succ]
      congr 1
      omega
    · intro hpos
      have heq : next (events log) + (top + 1 - next (events log) - 1) = top := by omega
      rwa [heq]
    · unfold JitterBuffer.missing
      rw [h.nextSeq, hhigh]
      exact jb.missingLoop_eq hwalks (by simp only [capacity] at hhi; omega)
    · intro k hk
      rw [← place_add, h.window _ (by omega) (by omega), unfilled_iff]

/-- A front that is not ready is the first gap, and there are fewer than `maxLead` of them. -/
theorem missing_of_not_ready (h : TracksFrom base jb log) (hlead : 0 < jb.maxLead)
    (hready : ¬Ready jb.maxLead (events log)) :
    jb.missing.length < jb.maxLead ∧ ∀ seq ∈ jb.missing.head?, jb.nextSeq = some seq := by
  cases hhigh : jb.highestSeq with
  | none =>
    have hnil : jb.missing = [] := by
      unfold JitterBuffer.missing
      rw [h.nextSeq, hhigh]
    simp [hnil, hlead]
  | some highest =>
    obtain ⟨n, -, -, -, htop, hmissing, hfilled⟩ := h.missing hhigh
    obtain ⟨hfront, hbehind⟩ := not_or.mp hready
    cases n with
    | zero => simp [hmissing, hlead]
    | succ n =>
      have hist := htop (Nat.succ_pos n)
      rw [Nat.add_sub_cancel] at hist
      have hshort : n < jb.maxLead := by
        rw [hist.reached_iff] at hbehind
        omega
      obtain ⟨f, hf⟩ := hist.mem
      have hkept : jb.lookup (place (place base (next (events log))) n) ≠ none := by
        rw [Ne, hfilled n (Nat.lt_succ_self n), unfilled_iff]
        exact latest_ne_none_of_mem hf
      constructor
      · -- the highest accepted number itself is no gap
        have hless : jb.missing.length <
            ((List.range (n + 1)).map (place (place base (next (events log))))).length := by
          rw [hmissing, List.length_filter_lt_length_iff_exists]
          refine ⟨_, List.mem_map.mpr ⟨n, List.self_mem_range_succ, rfl⟩, ?_⟩
          simpa using hkept
        rw [List.length_map, List.length_range] at hless
        omega
      · have hempty : jb.lookup (place base (next (events log))) = none := by
          rw [h.window _ (le_refl _) (by simp [capacity])]
          exact not_not.mp hfront
        intro seq hseq
        rw [hmissing, List.range_succ_eq_map, List.map_cons, place_zero,
          List.filter_cons_of_pos (by simp [hempty]), List.head?_cons] at hseq
        obtain rfl := Option.some.inj hseq
        exact h.nextSeq

end TracksFrom

/-- `seq` is a gap: neither delivered nor given up on, not buffered, and an accepted packet
lies behind it. -/
structure IsGap (seg : Segment F) (seq : U16) : Prop where
  placed : ∃ base pos, seg.start = some base ∧ seq = place base pos ∧
    (deliveries seg.log).length ≤ pos ∧ Unfilled seg.log pos ∧
    ∃ q s f, Entry.accepted q s f ∈ seg.log ∧ pos < q
  empty : seg.buffer.lookup seq = none

theorem Segment.Tracks.isGap_of_mem {seg : Segment F} (h : seg.Tracks) {seq : U16}
    (hseq : seq ∈ seg.buffer.missing) : IsGap seg seq := by
  unfold JitterBuffer.missing at hseq
  cases hs : seg.start with
  | none =>
    simp only [Tracks, hs] at h
    simp [h.2.1] at hseq
  | some base =>
    have ht := Segment.tracks_start h hs
    cases hhigh : seg.buffer.highestSeq with
    | none => simp [hhigh] at hseq
    | some highest =>
      obtain ⟨n, -, -, -, htop, hmissing, hfilled⟩ := ht.missing hhigh
      replace hseq : seq ∈ seg.buffer.missing := hseq
      rw [hmissing, List.mem_filter, Option.isNone_iff_eq_none, List.mem_map] at hseq
      obtain ⟨⟨k, hk, rfl⟩, hempty⟩ := hseq
      rw [List.mem_range] at hk
      have hunfilled := (hfilled k hk).mp hempty
      rw [next_events] at htop hunfilled hempty ⊢
      obtain ⟨f, hf⟩ := (htop (by omega)).mem
      obtain ⟨e, he, hev⟩ := List.mem_map.mp hf
      cases e with
      | delivered d => cases hev
      | accepted q s g =>
        cases hev
        have hne : k ≠ n - 1 := by
          intro heq
          rw [heq] at hunfilled
          exact hunfilled s f he
        refine ⟨⟨base, _, hs, (place_add _ _ _).symm, Nat.le_add_right _ _, hunfilled, ?_⟩, hempty⟩
        exact ⟨_, s, f, he, by omega⟩

/-- What the gap report of a segment promises, `lead` being the force-skip threshold. -/
structure GapsReported (lead : Nat) (seg : Segment F) : Prop where
  /-- Before the first packet there is nothing to report. -/
  silent : seg.buffer.nextSeq = none ∨ seg.buffer.highestSeq = none → seg.buffer.missing = []
  /-- At most a ring of turns, from the next to the highest number: those of them that no packet
  was accepted for. -/
  walked : ∀ nxt highest, seg.buffer.nextSeq = some nxt → seg.buffer.highestSeq = some highest →
    ∃ n ≤ capacity, Walks nxt highest n ∧ place nxt n = highest + 1 ∧
      seg.buffer.missing =
        ((List.range n).map (place nxt)).filter (fun seq => (seg.buffer.lookup seq).isNone) ∧
      ∀ k < n, seg.buffer.lookup (place nxt k) = none ↔
        Unfilled seg.log ((deliveries seg.log).length + k)
  nodup : seg.buffer.missing.Nodup
  /-- After a `popReady` the next number is missing, or none is. -/
  few : 0 < lead → (seg.call .popReady).buffer.missing.length < lead ∧
    ∀ seq ∈ (seg.call .popReady).buffer.missing.head?,
      (seg.call .popReady).buffer.nextSeq = some seq
  idle : (seg.call .popReady).buffer.popReady = ([], (seg.call .popReady).buffer)

theorem place_injOn (base : U16) {n : Nat} (hn : n ≤ capacity) :
    ((List.range n).map (place base)).Nodup := by
  refine List.Nodup.map_on ?_ List.nodup_range
  intro i hi j hj heq
  rw [List.mem_range] at hi hj
  have hslot : slot (place base i) = slot (place base j) := by rw [heq]
  exact slot_place_inj (n := 0) (by omega) (by omega) hslot

theorem JitterBuffer.missing_of_none {jb : JitterBuffer F}
    (h : jb.nextSeq = none ∨ jb.highestSeq = none) : jb.missing = [] := by
  unfold missing
  split
  · rename_i nxt highest hnext hhigh
    rcases h with hnone | hnone
    · rw [hnone] at hnext
      cases hnext
    · rw [hnone] at hhigh
      cases hhigh
  · rfl

theorem Segment.Tracks.missing_walked {seg : Segment F} (h : seg.Tracks) {nxt highest : U16}
    (hnext : seg.buffer.nextSeq = some nxt) (hhigh : seg.buffer.highestSeq = some highest) :
    ∃ n ≤ capacity, Walks nxt highest n ∧ place nxt n = highest + 1 ∧
      seg.buffer.missing =
        ((List.range n).map (place nxt)).filter (fun seq => (seg.buffer.lookup seq).isNone) ∧
      ∀ k < n, seg.buffer.lookup (place nxt k) = none ↔
        Unfilled seg.log ((deliveries seg.log).length + k) := by
  cases hs : seg.start with
  | none =>
    simp only [Tracks, hs] at h
    rw [h.2.1] at hnext
    cases hnext
  | some base =>
    have ht := Segment.tracks_start h hs
    obtain rfl := Option.some.inj (ht.nextSeq.symm.trans hnext)
    obtain ⟨n, hn, hwalks, hlast, -, hmissing, hfilled⟩ := ht.missing hhigh
    rw [← next_events]
    exact ⟨n, hn, hwalks, hlast, hmissing, hfilled⟩

theorem Segment.Tracks.missing_nodup {seg : Segment F} (h : seg.Tracks) :
    seg.buffer.missing.Nodup := by
  cases hnext : seg.buffer.nextSeq with
  | none => simp [JitterBuffer.missing_of_none (.inl hnext)]
  | some nxt =>
    cases hhigh : seg.buffer.highestSeq with
    | none => simp [JitterBuffer.missing_of_none (.inr hhigh)]
    | some highest =>
      obtain ⟨n, hn, -, -, hmissing, -⟩ := h.missing_walked hnext hhigh
      rw [hmissing]
      exact (place_injOn nxt hn).filter _

theorem Segment.Tracks.gapsReported {seg : Segment F} (h : seg.Tracks) :
    GapsReported seg.buffer.maxLead seg where
  silent := JitterBuffer.missing_of_none
  walked _ _ := h.missing_walked
  nodup := h.missing_nodup
  few := by
    intro hlead
    cases hs : seg.start with
    | none =>
      simp only [Tracks, hs] at h
      obtain ⟨-, hnext, hhigh, -⟩ := h
      have hsame : (seg.call .popReady).buffer = seg.buffer := by
        simp [Segment.call, JitterBuffer.popReady, hhigh]
      rw [hsame, JitterBuffer.missing_of_none (.inl hnext)]
      simp [hlead]
    | some base =>
      obtain ⟨ht, hready⟩ := (Segment.tracks_start h hs).popReady
      have hfew := ht.missing_of_not_ready (by simpa using hlead)
        (by rwa [JitterBuffer.popReady_maxLead])
      rw [JitterBuffer.popReady_maxLead] at hfew
      exact hfew
  idle := h.popReady_idle

end OpenAirplay.Jitter
