import OpenAirplay.JitterRuns

/-!
# Packets out of order

Packets that overtake each other by less than the lead are handed out as if they had arrived
in order: nothing is lost, nothing is dropped, and the order of arrival cannot be told.
-/

namespace OpenAirplay.Jitter

open SerialNumber Reassembly

set_option autoImplicit false

/-! ## Orders of arrival -/

theorem exists_notMem (order : List Nat) : ∃ i, i ∉ order := by
  obtain ⟨i, hi⟩ := Infinite.exists_notMem_finset order.toFinset
  exact ⟨i, by simpa using hi⟩

/-- The first position that has not arrived. -/
def awaited (order : List Nat) : Nat := Nat.find (exists_notMem order)

theorem awaited_notMem (order : List Nat) : awaited order ∉ order :=
  Nat.find_spec (exists_notMem order)

theorem mem_of_lt_awaited {order : List Nat} {i : Nat} (h : i < awaited order) : i ∈ order :=
  not_not.mp (Nat.find_min (exists_notMem order) h)

theorem awaited_eq {order : List Nat} {p : Nat} (hbelow : ∀ i, i < p → i ∈ order)
    (hp : p ∉ order) : awaited order = p := by
  apply (Nat.find_eq_iff _).mpr
  exact ⟨hp, fun i hi => not_not.mpr (hbelow i hi)⟩

theorem awaited_le_snoc (order : List Nat) (j : Nat) : awaited order ≤ awaited (order ++ [j]) := by
  by_contra hlt
  apply awaited_notMem (order ++ [j])
  exact List.mem_append_left _ (mem_of_lt_awaited (by omega))

/-- Positions `0` to `k - 1` in some order, each first arriving before any position `lead` or
more ahead of it; a duplicate comes while its number still reads as behind. -/
structure Order (lead k : Nat) (order : List Nat) : Prop where
  covers : ∀ i, i ∈ order ↔ i < k
  overtaken : ∀ pre j post, order = pre ++ j :: post → ∀ i, i + lead ≤ j → i ∈ pre
  behind : ∀ pre j post, order = pre ++ j :: post → awaited pre < j + 2 ^ 15

theorem Order.awaited_eq {lead k : Nat} {order : List Nat} (h : Order lead k order) :
    awaited order = k := by
  apply Jitter.awaited_eq
  · exact fun i hi => (h.covers i).mpr hi
  · exact fun hk => Nat.lt_irrefl k ((h.covers k).mp hk)

theorem awaited_le_length (order : List Nat) : awaited order ≤ order.length := by
  have hsub : List.range (awaited order) ⊆ order := fun i hi =>
    mem_of_lt_awaited (List.mem_range.mp hi)
  simpa using (List.nodup_range.subperm hsub).length_le

theorem order_swap : Order 4 3 [1, 0, 0, 2] where
  covers i := by
    simp only [List.mem_cons, List.not_mem_nil, or_false]
    omega
  overtaken pre j post hsplit i hi := by
    have hj : j ∈ [1, 0, 0, 2] := by simp [hsplit]
    simp only [List.mem_cons, List.not_mem_nil, or_false] at hj
    omega
  behind pre j post hsplit := by
    have hlen := congrArg List.length hsplit
    have := awaited_le_length pre
    simp at hlen
    omega

theorem Order.lt_lead {lead k : Nat} {order pre post : List Nat} {j : Nat}
    (h : Order lead k order) (hsplit : order = pre ++ j :: post) : j < awaited pre + lead := by
  by_contra hge
  exact awaited_notMem pre (h.overtaken pre j post hsplit _ (by omega))

variable {F : Type}

/-- Packets arriving in this order, the numbers counted from `n`. -/
def JitterBuffer.arriveOrder (n : U16) (frames : Nat → F) :
    JitterBuffer F → List Nat → List (Delivery F) × JitterBuffer F
  | jb, [] => ([], jb)
  | jb, j :: order =>
    let (out, jb') := jb.arrive (place n j) (frames j)
    let (out', jb'') := jb'.arriveOrder n frames order
    (out ++ out', jb'')

theorem JitterBuffer.arriveOrder_snoc (n : U16) (frames : Nat → F) (jb : JitterBuffer F)
    (order : List Nat) (j : Nat) :
    jb.arriveOrder n frames (order ++ [j]) =
      ((jb.arriveOrder n frames order).1 ++
          ((jb.arriveOrder n frames order).2.arrive (place n j) (frames j)).1,
        ((jb.arriveOrder n frames order).2.arrive (place n j) (frames j)).2) := by
  induction order generalizing jb with
  | nil => simp [arriveOrder]
  | cons i order ih => simp [arriveOrder, ih]

/-! ## The buffer after any part of the order -/

theorem accept_mem_delivered {log : List (Entry F)} {out : List (Delivery F)} {q : Nat} {f : F} :
    Reassembly.Event.accept q f ∈ events (log ++ out.map .delivered) ↔
      Reassembly.Event.accept q f ∈ events log := by
  simp [events, Entry.event]

theorem latest_delivered (p : Nat) (log : List (Entry F)) (out : List (Delivery F)) :
    latest p (events (log ++ out.map .delivered)) = latest p (events log) := by
  induction out using List.reverseRecOn with
  | nil => simp
  | append_singleton out d ih =>
    rw [List.map_append, ← List.append_assoc, events_append, List.map_singleton, events_delivered,
      latest_deliver, ih]

/-- After `order`: what has arrived is filed, and all of it up to the first missing position
is out. The stream position of `n` is `first`. -/
structure Filed (base : U16) (first lead : Nat) (frames : Nat → F) (order : List Nat)
    (jb : JitterBuffer F) (log : List (Entry F)) : Prop where
  tracks : TracksFrom base jb log
  maxLead : jb.maxLead = lead
  next : next (events log) = first + awaited order
  latest : ∀ i, latest (first + i) (events log) = if i ∈ order then some (frames i) else none
  top : ∀ q f, Reassembly.Event.accept q f ∈ events log → q < first + awaited order + lead

namespace Filed

variable {base : U16} {first lead : Nat} {frames : Nat → F} {order : List Nat}
  {jb : JitterBuffer F} {log : List (Entry F)}

theorem nil (ht : TracksFrom base jb log) (hnext : Reassembly.next (events log) = first)
    (hfresh : ∀ q f, Reassembly.Event.accept q f ∈ events log → q < first) :
    Filed base first jb.maxLead frames [] jb log where
  tracks := ht
  maxLead := rfl
  next := by rw [hnext, awaited_eq (p := 0) (by simp) (by simp), Nat.add_zero]
  latest i := by
    rw [if_neg (by simp)]
    apply latest_eq_none_of_lt
    intro q f hq
    have := hfresh q f hq
    omega
  top q f hq := by
    have := hfresh q f hq
    omega

theorem not_ready (h : Filed base first lead frames order jb log) :
    ¬Ready jb.maxLead (events log) := by
  rintro (hl | ⟨q, f, hq, hle⟩)
  · rw [h.next, h.latest, if_neg (awaited_notMem order)] at hl
    exact hl rfl
  · have := h.top q f hq
    rw [h.next, h.maxLead] at hle
    omega

theorem duplicate (h : Filed base first lead frames order jb log) {j : Nat}
    (hj : j < awaited order) :
    Filed base first lead frames (order ++ [j]) jb log := by
  have hmem := mem_of_lt_awaited hj
  have hsame : ∀ i, i ∈ order ++ [j] ↔ i ∈ order := by
    intro i
    simp only [List.mem_append, List.mem_singleton, or_iff_left_iff_imp]
    rintro rfl
    exact hmem
  have hawaited : awaited (order ++ [j]) = awaited order :=
    awaited_eq (fun i hi => (hsame i).mpr (mem_of_lt_awaited hi))
      (mt (hsame _).mp (awaited_notMem order))
  refine ⟨h.tracks, h.maxLead, ?_, ?_, ?_⟩
  · rw [h.next, hawaited]
  · intro i
    rw [h.latest]
    simp only [hsame]
  · rw [hawaited]
    exact h.top

theorem arrive_behind (h : Filed base first lead frames order jb log) {j : Nat}
    (hj : j < awaited order) (hbehind : awaited order < j + 2 ^ 15) (f : F) :
    jb.arrive (place base (first + j)) f = ([], jb) := by
  have hdrop : ¬jb.Accepts (place base (first + j)) := by
    simp only [JitterBuffer.Accepts, h.tracks.nextSeq, h.next, Option.getD_some, seqDiff]
    rw [diff_place_of_half base (by omega) (by omega)]
    omega
  rw [JitterBuffer.arrive, h.tracks.insert_dropped hdrop, h.tracks.popReady_eq_nil h.not_ready]

theorem accepts (h : Filed base first lead frames order jb log) (hlead : lead < capacity) {j : Nat}
    (hlo : awaited order ≤ j) (hhi : j < awaited order + lead) :
    jb.Accepts (place base (first + j)) ∧
      jb.ahead (place base (first + j)) = j - awaited order := by
  have hplace : first + j = Reassembly.next (events log) + (j - awaited order) := by
    rw [h.next]
    omega
  have hring : j - awaited order < capacity := by omega
  rw [hplace]
  refine ⟨(h.tracks.accepts_ahead ?_).mpr hring, h.tracks.ahead_place hring⟩
  simp only [capacity] at hring
  omega

/-- A packet from the first missing position on releases all it completes. -/
theorem arrive_ahead (h : Filed base first lead frames order jb log) (hlead : lead < capacity)
    {j : Nat} (hlo : awaited order ≤ j) (hhi : j < awaited order + lead) :
    ∃ log', Filed base first lead frames (order ++ [j])
        (jb.arrive (place base (first + j)) (frames j)).2 log' ∧
      deliveries log' = deliveries log ++ (jb.arrive (place base (first + j)) (frames j)).1 := by
  obtain ⟨hacc, hahead⟩ := h.accepts hlead hlo hhi
  have hin := h.tracks.accept hacc (frames j)
  have hpos : Reassembly.next (events log) + (j - awaited order) = first + j := by
    rw [h.next]
    omega
  rw [hahead, hpos] at hin
  set jb' := jb.insert (place base (first + j)) (frames j) with hjb'
  have hlead' : jb'.maxLead = lead := (JitterBuffer.insert_maxLead jb _ _).trans h.maxLead
  obtain ⟨hout, hready⟩ := hin.popReady
  set log' := log ++ [.accepted (first + j) (place base (first + j)) (frames j)] ++
    jb'.popReady.1.map .delivered with hlog'
  have haccepts : ∀ q f, Reassembly.Event.accept q f ∈ events log' →
      q < first + awaited order + lead := by
    intro q f hq
    rw [accept_mem_delivered, events_append, events_accepted, List.mem_append,
      List.mem_singleton, Reassembly.Event.accept.injEq] at hq
    rcases hq with hq | ⟨rfl, _⟩
    · exact h.top q f hq
    · omega
  have hlatest : ∀ i, Reassembly.latest (first + i) (events log') =
      if i ∈ order ++ [j] then some (frames i) else none := by
    intro i
    rw [latest_delivered, events_append, events_accepted, latest_accept, h.latest]
    by_cases hi : j = i
    · simp [hi]
    · simp [hi, Ne.symm hi]
  -- the loop stops at a missing position, and gave none up on the way there
  have hnext : Reassembly.next (events log') = first + awaited (order ++ [j]) := by
    have hmono : first + awaited order ≤ Reassembly.next (events log') := by
      rw [← h.next, next_events, next_events, hlog']
      simp
    obtain ⟨p, hp⟩ := Nat.exists_eq_add_of_le (Nat.le_trans (Nat.le_add_right _ _) hmono)
    rw [hp, awaited_eq (p := p)]
    · intro i hi
      rcases Nat.lt_or_ge i (awaited order) with hlt | hge
      · exact List.mem_append_left _ (mem_of_lt_awaited hlt)
      · by_contra hmissing
        have hlost : (outcomes (events log'))[first + i]? = some none := by
          rw [hout.lawful.outcome_at (by omega), hlatest, if_neg hmissing]
        obtain ⟨q, f, hq, hle⟩ := hout.lawful.lost_reached hlost
        have := haccepts q f hq
        rw [JitterBuffer.popReady_maxLead, hlead'] at hle
        omega
    · intro hmissing
      refine hready (Or.inl ?_)
      rw [hp, hlatest, if_pos hmissing]
      exact Option.some_ne_none _
  refine ⟨log', ⟨hout, ?_, hnext, hlatest, ?_⟩, ?_⟩
  · exact (JitterBuffer.popReady_maxLead jb').trans hlead'
  · intro q f hq
    have := haccepts q f hq
    have := awaited_le_snoc order j
    omega
  · rw [hlog', deliveries_append, deliveries_append, deliveries_accepted, List.append_nil,
      deliveries_map_delivered]
    rfl

/-- After any part of the order. -/
theorem run {k : Nat} (h : Filed base first lead frames [] jb log) (hlead : lead < capacity)
    {pre post : List Nat} (horder : Order lead k (pre ++ post)) :
    ∃ log', Filed base first lead frames pre
        (jb.arriveOrder (place base first) frames pre).2 log' ∧
      deliveries log' = deliveries log ++ (jb.arriveOrder (place base first) frames pre).1 := by
  induction pre using List.reverseRecOn generalizing post with
  | nil => exact ⟨log, h, (List.append_nil _).symm⟩
  | append_singleton pre j ih =>
    rw [List.append_assoc, List.singleton_append] at horder
    obtain ⟨log', hfiled, hout⟩ := ih horder
    rw [JitterBuffer.arriveOrder_snoc, ← place_add]
    rcases Nat.lt_or_ge j (awaited pre) with hlt | hge
    · have hdrop := hfiled.arrive_behind hlt (horder.behind pre j post rfl) (frames j)
      refine ⟨log', ?_, ?_⟩
      · rw [hdrop]
        exact hfiled.duplicate hlt
      · rw [hdrop, hout, List.append_nil]
    · obtain ⟨log'', hfiled', hout'⟩ := hfiled.arrive_ahead hlead hge (horder.lt_lead rfl)
      exact ⟨log'', hfiled', by rw [hout', hout, List.append_assoc]⟩

/-- All that is out are the packets up to the first missing one. -/
theorem deliveries_eq {earlier out : List (Delivery F)}
    (h : Filed base first lead frames order jb log) (hearlier : earlier.length = first)
    (hout : deliveries log = earlier ++ out) :
    out = (List.range (awaited order)).map fun i =>
      .packet (place (place base first) i) (frames i) := by
  have hlen : out.length = awaited order := by
    have hnext := h.next
    rw [next_events, hout, List.length_append] at hnext
    omega
  apply List.ext_getElem (by simp [hlen])
  intro i hi _
  rw [hlen] at hi
  have hat : (deliveries log)[first + i]? = some out[i] := by
    rw [hout, List.getElem?_append_right (by omega)]
    simp [hearlier, hlen, hi]
  obtain ⟨hseq, hframe⟩ := h.tracks.delivery_at hat
  rw [h.latest, if_pos (mem_of_lt_awaited hi)] at hframe
  rw [List.getElem_map, List.getElem_range, ← place_add, ← hseq]
  cases hd : out[i] with
  | packet seq frame =>
    rw [hd] at hframe
    rw [Option.some.inj hframe]
    rfl
  | lost seq =>
    rw [hd] at hframe
    cases hframe

end Filed

/-- An empty buffer has released everything it took. -/
theorem TracksFrom.lt_next_of_empty {base : U16} {jb : JitterBuffer F} {log : List (Entry F)}
    (h : TracksFrom base jb log) (hempty : ∀ s, jb.lookup s = none) (q : Nat) (f : F)
    (hq : Reassembly.Event.accept q f ∈ events log) : q < next (events log) := by
  by_contra hge
  rcases h.highest with ⟨_, hno⟩ | ⟨top, _, hist, _, hhi⟩
  · exact hno q f hq
  · have hle := hist.le q f hq
    have hnone := h.window q (by omega) (by omega)
    rw [hempty] at hnone
    exact latest_ne_none_of_mem hq hnone.symm

/-- Whatever the order in which packets overtake each other by less than the lead, an empty
buffer hands them out in sequence, having dropped none. -/
theorem reordering_restored (lead : Nat) (h : lead < capacity) (calls : List (Call F)) (n : U16)
    (hnext : ((Segment.fresh lead h).run calls).buffer.nextSeq = some n)
    (hempty : ∀ s, ((Segment.fresh lead h).run calls).buffer.lookup s = none)
    (k : Nat) (frames : Nat → F) (order : List Nat) (horder : Order lead k order) :
    (((Segment.fresh lead h).run calls).buffer.arriveOrder n frames order).1 =
        (List.range k).map (fun i => .packet (place n i) (frames i)) ∧
      (∀ pre j post, order = pre ++ j :: post →
        (((Segment.fresh lead h).run calls).buffer.arriveOrder n frames pre).2.nextSeq =
            some (place n (awaited pre)) ∧
          (j ∉ pre → (((Segment.fresh lead h).run calls).buffer.arriveOrder n frames pre).2.Accepts
            (place n j))) ∧
      ∀ order', Order lead k order' →
        (((Segment.fresh lead h).run calls).buffer.arriveOrder n frames order').1 =
          (((Segment.fresh lead h).run calls).buffer.arriveOrder n frames order).1 := by
  have htracks := Segment.tracks_run (Segment.tracks_fresh h) calls
  have hmax := Segment.maxLead_run (Segment.fresh lead h) calls
  set seg := (Segment.fresh lead h).run calls with hseg
  change seg.buffer.maxLead = lead at hmax
  cases hs : seg.start with
  | none =>
    simp only [Segment.Tracks, hs] at htracks
    simp [htracks.2.1] at hnext
  | some base =>
    have ht := Segment.tracks_start htracks hs
    have hn : n = place base (next (events seg.log)) :=
      Option.some.inj (hnext.symm.trans ht.nextSeq)
    subst hn
    have hnil : Filed base (next (events seg.log)) lead frames [] seg.buffer seg.log := by
      rw [← hmax]
      exact Filed.nil ht rfl (ht.lt_next_of_empty hempty)
    have hall : ∀ order', Order lead k order' →
        (seg.buffer.arriveOrder (place base (next (events seg.log))) frames order').1 =
          (List.range k).map fun i =>
            .packet (place (place base (next (events seg.log))) i) (frames i) := by
      intro order' horder'
      rw [← List.append_nil order'] at horder'
      obtain ⟨log', hfiled, hout⟩ := hnil.run h horder'
      rw [List.append_nil] at horder'
      rw [hfiled.deliveries_eq (next_events seg.log).symm hout, horder'.awaited_eq]
    refine ⟨hall order horder, ?_, fun order' horder' => ?_⟩
    · rintro pre j post rfl
      obtain ⟨log', hfiled, -⟩ := hnil.run h horder
      refine ⟨?_, fun hj => ?_⟩
      · rw [hfiled.tracks.nextSeq, hfiled.next, place_add]
      · have hge : awaited pre ≤ j := by
          by_contra hlt
          exact hj (mem_of_lt_awaited (by omega))
        rw [← place_add]
        exact (hfiled.accepts h hge (horder.lt_lead rfl)).1
    · rw [hall order horder, hall order' horder']

/-- Three packets, the second first and the first one twice. -/
theorem reordering_restored_swap :
    (((Segment.fresh 4 (by decide)).run [.reset (some 65535)]).buffer.arriveOrder 65535
        (fun i => i) [1, 0, 0, 2]).1 =
        (List.range 3).map (fun i => .packet (place 65535 i) i) ∧
      (∀ pre j post, [1, 0, 0, 2] = pre ++ j :: post →
        (((Segment.fresh 4 (by decide)).run [.reset (some 65535)]).buffer.arriveOrder 65535
            (fun i => i) pre).2.nextSeq = some (place 65535 (awaited pre)) ∧
          (j ∉ pre →
            (((Segment.fresh 4 (by decide)).run [.reset (some 65535)]).buffer.arriveOrder 65535
              (fun i => i) pre).2.Accepts (place 65535 j))) ∧
      ∀ order', Order 4 3 order' →
        (((Segment.fresh 4 (by decide)).run [.reset (some 65535)]).buffer.arriveOrder 65535
            (fun i => i) order').1 =
          (((Segment.fresh 4 (by decide)).run [.reset (some 65535)]).buffer.arriveOrder 65535
            (fun i => i) [1, 0, 0, 2]).1 :=
  reordering_restored 4 (by decide) [.reset (some 65535)] 65535 rfl
    (JitterBuffer.lookup_reset _ _) 3 (fun i => i) [1, 0, 0, 2] order_swap

end OpenAirplay.Jitter
