import OpenAirplay.Jitter
import OpenAirplay.Shared.Reassembly

/-!
# The jitter buffer as an in-order reassembler

`Segment` records what the buffer does between two resets: which inserts it accepted,
at which stream position, and what it delivered. `TracksFrom` ties the ring, the next
and the highest sequence to the unbounded positions of that record; every call keeps
it, whatever the interleaving, so the laws of `Reassembly` hold of the buffer.
-/

namespace OpenAirplay.Jitter

open SerialNumber Reassembly

set_option autoImplicit false

variable {F : Type}

inductive Call (F : Type) where
  | insert (seq : U16) (frame : F)
  | popReady
  | reset (nextSeq : Option U16)

inductive Entry (F : Type) where
  | accepted (pos : Nat) (seq : U16) (frame : F)
  | delivered (d : Delivery F)

def Entry.event : Entry F → Reassembly.Event F
  | .accepted pos _ frame => .accept pos frame
  | .delivered d => .deliver d.frame?

def Entry.delivery? : Entry F → Option (Delivery F)
  | .accepted _ _ _ => none
  | .delivered d => some d

def events (log : List (Entry F)) : List (Reassembly.Event F) := log.map Entry.event

def deliveries (log : List (Entry F)) : List (Delivery F) := log.filterMap Entry.delivery?

/-- The buffer and its record since the last reset. `start` is the sequence number of
stream position 0: the one given to the reset, or else the first one inserted. -/
structure Segment (F : Type) where
  buffer : JitterBuffer F
  start : Option U16
  log : List (Entry F)

def JitterBuffer.ahead (jb : JitterBuffer F) (seq : U16) : Nat :=
  (seqDiff seq (jb.nextSeq.getD seq)).toNat

def Segment.call (seg : Segment F) : Call F → Segment F
  | .insert seq frame =>
    { buffer := seg.buffer.insert seq frame
      start := some (seg.start.getD seq)
      log :=
        if seg.buffer.Accepts seq then
          seg.log ++ [.accepted ((deliveries seg.log).length + seg.buffer.ahead seq) seq frame]
        else seg.log }
  | .popReady =>
    let (out, jb) := seg.buffer.popReady
    { seg with buffer := jb, log := seg.log ++ out.map .delivered }
  | .reset nextSeq => ⟨seg.buffer.reset nextSeq, nextSeq, []⟩

def Segment.fresh (lead : Nat) (h : lead < capacity) : Segment F := ⟨.new lead h, none, []⟩

def Segment.run (seg : Segment F) (calls : List (Call F)) : Segment F :=
  calls.foldl Segment.call seg

@[simp] theorem events_append (log log' : List (Entry F)) :
    events (log ++ log') = events log ++ events log' := by simp [events]

@[simp] theorem deliveries_append (log log' : List (Entry F)) :
    deliveries (log ++ log') = deliveries log ++ deliveries log' := by
  simp [deliveries, List.filterMap_append]

@[simp] theorem events_accepted (pos : Nat) (seq : U16) (f : F) :
    events [Entry.accepted pos seq f] = [.accept pos f] := rfl

@[simp] theorem events_delivered (d : Delivery F) :
    events [Entry.delivered d] = [.deliver d.frame?] := rfl

@[simp] theorem deliveries_accepted (pos : Nat) (seq : U16) (f : F) :
    deliveries [Entry.accepted pos seq f] = [] := rfl

@[simp] theorem deliveries_delivered (d : Delivery F) : deliveries [Entry.delivered d] = [d] := rfl

@[simp] theorem deliveries_map_delivered (out : List (Delivery F)) :
    deliveries (out.map .delivered) = out := by
  induction out with
  | nil => rfl
  | cons d out ih => exact congrArg (d :: ·) ih

theorem outcomes_events (log : List (Entry F)) :
    outcomes (events log) = (deliveries log).map Delivery.frame? := by
  induction log with
  | nil => rfl
  | cons e log ih =>
    cases e with
    | accepted pos seq f => exact ih
    | delivered d => exact congrArg (d.frame? :: ·) ih

theorem next_events (log : List (Entry F)) : next (events log) = (deliveries log).length := by
  rw [next, outcomes_events, List.length_map]

/-- The highest sequence names the highest accepted position, which lies in the window
or has just been delivered. -/
def Highest (base : U16) (highestSeq : Option U16) (evs : List (Reassembly.Event F)) : Prop :=
  (highestSeq = none ∧ ∀ q f, Reassembly.Event.accept q f ∉ evs) ∨
    ∃ top, highestSeq = some (place base top) ∧ IsTop evs top ∧
      next evs ≤ top + 1 ∧ top < next evs + capacity

theorem Highest.accept {base : U16} {highestSeq : Option U16} {evs : List (Reassembly.Event F)}
    (h : Highest base highestSeq evs) {p : Nat} (hlo : next evs ≤ p)
    (hhi : p < next evs + capacity) (f : F) :
    Highest base
      (if highestSeq.all fun s => 0 < seqDiff (place base p) s then some (place base p)
        else highestSeq)
      (evs ++ [.accept p f]) := by
  right
  rcases h with ⟨rfl, hno⟩ | ⟨top, rfl, htop, htlo, hthi⟩
  · refine ⟨p, by simp, isTop_accept_first hno p f, ?_, ?_⟩ <;> rw [next_accept] <;> omega
  · have hd : seqDiff (place base p) (place base top) = (p : Int) - top :=
      diff_place_of_half base (by simp only [capacity] at *; omega)
        (by simp only [capacity] at *; omega)
    refine ⟨max top p, ?_, htop.accept p f, ?_, ?_⟩
    · simp only [Option.all_some, hd, decide_eq_true_eq]
      split
      · rw [Nat.max_eq_right (by omega)]
      · rw [Nat.max_eq_left (by omega)]
    · rw [next_accept]
      omega
    · rw [next_accept]
      omega

/-- The representation invariant, for a segment that starts at `base`. -/
structure TracksFrom (base : U16) (jb : JitterBuffer F) (log : List (Entry F)) : Prop where
  lawful : Lawful capacity jb.maxLead (events log)
  nextSeq : jb.nextSeq = some (place base (next (events log)))
  window : ∀ p, next (events log) ≤ p → p < next (events log) + capacity →
    jb.lookup (place base p) = latest p (events log)
  highest : Highest base jb.highestSeq (events log)
  seqs : (deliveries log).map Delivery.seq = (List.range (next (events log))).map (place base)
  placed : ∀ pos seq f, Entry.accepted pos seq f ∈ log → seq = place base pos

theorem tracksFrom_nil {base : U16} {jb : JitterBuffer F} (hnext : jb.nextSeq = some base)
    (hhigh : jb.highestSeq = none) (hslots : ∀ s, jb.lookup s = none) : TracksFrom base jb [] where
  lawful := lawful_nil
  nextSeq := by simpa [events] using hnext
  window p _ _ := by simp [hslots, events]
  highest := Or.inl ⟨hhigh, by simp [events]⟩
  seqs := rfl
  placed := by simp

namespace TracksFrom

variable {base : U16} {jb : JitterBuffer F} {log : List (Entry F)}

theorem seqDiff_next (h : TracksFrom base jb log) {seq : U16} (ha : jb.Accepts seq) :
    seq = place base (next (events log) + jb.ahead seq) ∧ jb.ahead seq < capacity := by
  simp only [JitterBuffer.Accepts, JitterBuffer.ahead, h.nextSeq, Option.getD_some] at ha ⊢
  refine ⟨?_, by omega⟩
  rw [place_add]
  exact (place_diff ha.1).symm

theorem accept (h : TracksFrom base jb log) {seq : U16} (ha : jb.Accepts seq) (f : F) :
    TracksFrom base (jb.insert seq f)
      (log ++ [.accepted (next (events log) + jb.ahead seq) seq f]) := by
  obtain ⟨hseq, hahead⟩ := h.seqDiff_next ha
  set p := next (events log) + jb.ahead seq with hp
  rw [JitterBuffer.insert_of_accepts ha]
  refine ⟨?_, ?_, ?_, ?_, ?_, ?_⟩
  · rw [events_append]
    exact lawful_snoc.mpr ⟨h.lawful, by omega, by omega⟩
  · simp [h.nextSeq]
  · intro q hq hq'
    simp only [events_append, events_accepted, next_accept] at hq hq' ⊢
    rw [latest_accept]
    change (jb.store seq (some f)).lookup (place base q) = _
    rw [JitterBuffer.lookup_store]
    by_cases hpq : p = q
    · rw [if_pos hpq, if_pos (by rw [hseq, hpq])]
    · have hslot : slot seq ≠ slot (place base q) := by
        rw [hseq]
        exact fun he => hpq (slot_place_inj ⟨by omega, by omega⟩ ⟨hq, hq'⟩ he)
      rw [if_neg hpq, if_neg hslot, h.window q hq hq']
  · rw [events_append, events_accepted, hseq]
    exact h.highest.accept (by omega) (by omega) f
  · simpa using h.seqs
  · intro pos s g hmem
    rcases List.mem_append.mp hmem with hmem | hmem
    · exact h.placed pos s g hmem
    · simp only [List.mem_singleton, Entry.accepted.injEq] at hmem
      obtain ⟨rfl, rfl, rfl⟩ := hmem
      exact hseq

theorem insert_dropped (h : TracksFrom base jb log) {seq : U16} (ha : ¬jb.Accepts seq) (f : F) :
    jb.insert seq f = jb := by
  rw [JitterBuffer.insert_of_not_accepts ha, h.nextSeq]
  cases jb
  simp only [Option.getD_some, JitterBuffer.mk.injEq, true_and, and_true]
  exact h.nextSeq.symm

/-- Moving on from the front position, delivered or given up on: its slot is the one the
window gains at the far end, so it has to be empty. -/
theorem advance (h : TracksFrom base jb log) {jb' : JitterBuffer F} {d : Delivery F}
    (hseq : d.seq = place base (next (events log)))
    (hallowed : Allowed capacity jb.maxLead (events log) (.deliver d.frame?))
    (hreached : Reached (events log) (next (events log)))
    (hnext : jb'.nextSeq = some (d.seq + 1)) (hhigh : jb'.highestSeq = jb.highestSeq)
    (hlead : jb'.maxLead = jb.maxLead) (hfront : jb'.lookup d.seq = none)
    (hrest : ∀ s, slot s ≠ slot d.seq → jb'.lookup s = jb.lookup s) :
    TracksFrom base jb' (log ++ [.delivered d]) := by
  refine ⟨?_, ?_, ?_, ?_, ?_, ?_⟩
  · rw [hlead, events_append]
    exact lawful_snoc.mpr ⟨h.lawful, hallowed⟩
  · simp [hnext, hseq, place_succ]
  · intro p hlo hhi
    simp only [events_append, events_delivered, next_deliver, latest_deliver] at hlo hhi ⊢
    by_cases hp : p = next (events log) + capacity
    · have hnone : latest p (events log) = none := by
        apply latest_eq_none_of_lt
        intro q f hq
        rcases h.highest with ⟨_, hno⟩ | ⟨top, _, htop, _, hthi⟩
        · exact absurd hq (hno q f)
        · have := htop.le q f hq
          omega
      have hslot : slot (place base p) = slot d.seq := by rw [hp, slot_place_wrap, hseq]
      rw [hnone, ← hfront]
      simp only [JitterBuffer.lookup, hslot]
    · have hslot : slot (place base p) ≠ slot d.seq := by
        rw [hseq]
        intro he
        have := slot_place_inj (n := next (events log)) ⟨by omega, by omega⟩
          ⟨by omega, by simp [capacity]⟩ he
        omega
      rw [hrest _ hslot, h.window p (by omega) (by omega)]
  · rw [hhigh, events_append, events_delivered]
    rcases h.highest with ⟨_, hno⟩ | ⟨top, htop, hist, hlo, hhi⟩
    · obtain ⟨q, f, hq, _⟩ := hreached
      exact absurd hq (hno q f)
    · obtain ⟨q, f, hq, hnq⟩ := hreached
      have hle := hist.le q f hq
      refine Or.inr ⟨top, htop, hist.deliver _, ?_, ?_⟩ <;> rw [next_deliver] <;> omega
  · simp [h.seqs, hseq, List.range_succ]
  · intro pos s f hmem
    exact h.placed pos s f (by simpa using hmem)

theorem seqDiff_highest (h : TracksFrom base jb log) {top : Nat} (hist : IsTop (events log) top)
    {highest : U16} (hhigh : jb.highestSeq = some highest) :
    seqDiff highest (place base (next (events log))) = (top : Int) - next (events log) := by
  rcases h.highest with ⟨hnone, _⟩ | ⟨top', htop', hist', hlo, hhi⟩
  · simp [hnone] at hhigh
  · obtain ⟨f, hf⟩ := hist.mem
    obtain ⟨f', hf'⟩ := hist'.mem
    have hle := hist'.le top f hf
    have hge := hist.le top' f' hf'
    have heq : top' = top := by omega
    subst heq
    rw [Option.some.inj (hhigh.symm.trans htop')]
    exact diff_place_of_half base (by simp only [capacity] at *; omega)
      (by simp only [capacity] at *; omega)

theorem popStep (h : TracksFrom base jb log) {highest : U16} (hhigh : jb.highestSeq = some highest)
    {d : Delivery F} {jb' : JitterBuffer F} (hstep : jb.popStep highest = some (d, jb')) :
    TracksFrom base jb' (log ++ [.delivered d]) ∧ jb'.highestSeq = some highest ∧
      Reached (events log) (next (events log)) := by
  obtain ⟨nxt, hnext, hcase⟩ := JitterBuffer.popStep_eq_some hstep
  have hseq : nxt = place base (next (events log)) :=
    Option.some.inj (hnext.symm.trans h.nextSeq)
  have hfront : jb.lookup nxt = latest (next (events log)) (events log) := by
    rw [hseq]
    exact h.window _ (Nat.le_refl _) (by simp [capacity])
  rcases hcase with ⟨f, hf, rfl, rfl⟩ | ⟨hf, hlead, rfl, rfl⟩
  · have hlatest : latest (next (events log)) (events log) = some f := hfront.symm.trans hf
    have hreached : Reached (events log) (next (events log)) :=
      ⟨_, f, accept_mem_of_latest hlatest, Nat.le_refl _⟩
    refine ⟨h.advance hseq hlatest hreached rfl rfl rfl ?_ ?_, hhigh, hreached⟩
    · change (jb.store nxt none).lookup nxt = none
      simp [JitterBuffer.lookup_store]
    · intro s hs
      change (jb.store nxt none).lookup s = jb.lookup s
      rw [JitterBuffer.lookup_store, if_neg fun he => hs he.symm]
  · have hreached : Reached (events log) (next (events log) + jb.maxLead) := by
      rcases h.highest with ⟨hnone, _⟩ | ⟨top, _, hist, _, _⟩
      · simp [hnone] at hhigh
      · rw [hseq, h.seqDiff_highest hist hhigh] at hlead
        exact hist.reached (by omega)
    have hlatest := hfront.symm.trans hf
    refine ⟨h.advance hseq ⟨hlatest, hreached⟩ (hreached.mono (by omega)) rfl rfl rfl hf
      (fun _ _ => rfl), hhigh, hreached.mono (by omega)⟩

/-- A run of the loop keeps the invariant, and given enough turns ends at its `break`. -/
theorem popLoop (h : TracksFrom base jb log) {highest : U16} (hhigh : jb.highestSeq = some highest)
    (fuel : Nat) :
    let r := jb.popLoop highest fuel
    TracksFrom base r.2 (log ++ r.1.map .delivered) ∧ r.2.highestSeq = some highest ∧
      ((∀ q f, Reassembly.Event.accept q f ∈ events log → q < next (events log) + fuel) →
        r.2.popStep highest = none) := by
  induction fuel generalizing jb log with
  | zero =>
    refine ⟨by simpa [JitterBuffer.popLoop] using h, hhigh, ?_⟩
    intro hlt
    cases hstep : jb.popStep highest with
    | none => exact hstep
    | some r =>
      obtain ⟨_, _, q, f, hq, hle⟩ := h.popStep hhigh hstep
      have := hlt q f hq
      omega
  | succ fuel ih =>
    cases hstep : jb.popStep highest with
    | none =>
      simp only [JitterBuffer.popLoop, hstep, List.map_nil, List.append_nil]
      exact ⟨h, hhigh, fun _ => trivial⟩
    | some r =>
      obtain ⟨d, jb'⟩ := r
      obtain ⟨htracks, hhigh', _⟩ := h.popStep hhigh hstep
      obtain ⟨ht, hh, hdone⟩ := ih htracks hhigh'
      simp only [JitterBuffer.popLoop, hstep, List.map_cons]
      refine ⟨by simpa using ht, hh, ?_⟩
      intro hlt
      apply hdone
      intro q f hq
      have := hlt q f (by simpa using hq)
      simp only [events_append, events_delivered, next_deliver]
      omega

theorem popStep_eq_none (h : TracksFrom base jb log) {highest : U16}
    (hhigh : jb.highestSeq = some highest) :
    jb.popStep highest = none ↔ ¬Ready jb.maxLead (events log) := by
  rw [JitterBuffer.popStep_eq_none_iff h.nextSeq,
    h.window _ (Nat.le_refl _) (by simp [capacity])]
  unfold Ready
  rcases h.highest with ⟨hnone, _⟩ | ⟨top, _, hist, _, _⟩
  · simp [hnone] at hhigh
  · rw [h.seqDiff_highest hist hhigh, hist.reached_iff, not_or, not_not]
    constructor
    · rintro ⟨hl, hlt⟩
      exact ⟨hl, by omega⟩
    · rintro ⟨hl, hlt⟩
      exact ⟨hl, by omega⟩

theorem not_ready_of_highestSeq_none (h : TracksFrom base jb log) (hnone : jb.highestSeq = none) :
    ¬Ready jb.maxLead (events log) := by
  rcases h.highest with ⟨_, hno⟩ | ⟨top, htop, _⟩
  · rintro (hl | ⟨q, f, hq, _⟩)
    · obtain ⟨f, hf⟩ := Option.ne_none_iff_exists'.mp hl
      exact hno _ f (accept_mem_of_latest hf)
    · exact hno q f hq
  · simp [hnone] at htop

/-- Spec of `popReady`: it keeps the invariant and stops at a front that is not ready. -/
theorem popReady (h : TracksFrom base jb log) :
    TracksFrom base jb.popReady.2 (log ++ jb.popReady.1.map .delivered) ∧
      ¬Ready jb.maxLead (events (log ++ jb.popReady.1.map .delivered)) := by
  have hlead := jb.popReady_maxLead
  unfold JitterBuffer.popReady at hlead ⊢
  split at hlead
  · rename_i hnone
    simpa using ⟨h, h.not_ready_of_highestSeq_none hnone⟩
  · rename_i highest hhigh
    obtain ⟨ht, hh, hdone⟩ := h.popLoop hhigh (2 ^ 16)
    refine ⟨ht, ?_⟩
    rw [← hlead, ← ht.popStep_eq_none hh]
    apply hdone
    intro q f hq
    rcases h.highest with ⟨_, hno⟩ | ⟨top, _, hist, _, hhi⟩
    · exact absurd hq (hno q f)
    · have := hist.le q f hq
      simp only [capacity] at hhi
      omega

theorem popReady_eq_nil (h : TracksFrom base jb log) (hr : ¬Ready jb.maxLead (events log)) :
    jb.popReady = ([], jb) := by
  unfold JitterBuffer.popReady
  split
  · rfl
  · rename_i highest hhigh
    have hstep := (h.popStep_eq_none hhigh).mpr hr
    simp [JitterBuffer.popLoop, hstep]

theorem popReady_nil_iff (h : TracksFrom base jb log) :
    jb.popReady.1 = [] ↔ ¬Ready jb.maxLead (events log) := by
  constructor
  · intro hnil
    have hr := h.popReady.2
    simpa [hnil] using hr
  · intro hr
    rw [h.popReady_eq_nil hr]

end TracksFrom

end OpenAirplay.Jitter
