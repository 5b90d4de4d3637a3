import OpenAirplay.Streams

/-!
# Reports after the end

A playback thread reads the track anchor and sends its report one step later. Between the two
a connection that is dropped can end its session.
-/

namespace OpenAirplay

open Program

set_option autoImplicit false

/-! ## The end of a session and its threads -/

section Order

variable {ι : Type} {history : History ι Op.Res Deed} {i : ι} {p : Nat}

abbrev spawnedPlayer (i : ι) (config : AlacConfig) (sink p : Nat) : (ι × Call Op.Res) ⊕ Deed :=
  .inl (i, ⟨.ask (.spawnPlayer config sink), p⟩)

abbrev endedSession (i : ι) : (ι × Call Op.Res) ⊕ Deed := .inl (i, did (.send .sessionEnded))

/-- Connection `i` has ended a session since it spawned the thread. -/
def Outlived (history : History ι Op.Res Deed) (i : ι) (p : Nat) : Prop :=
  ∃ config sink, [spawnedPlayer i config sink p, endedSession i].Sublist history

/-- The thread has sent a report since its session ended. -/
def ReportsLate (history : History ι Op.Res Deed) (p : Nat) : Prop :=
  ∃ i config sink event,
    [spawnedPlayer i config sink p, endedSession i, .inr (.reported p event)].Sublist history

theorem outlived_snoc {x : (ι × Call Op.Res) ⊕ Deed} (h : Outlived (history ++ [x]) i p) :
    Outlived history i p ∨
      (x = endedSession i ∧ ∃ config sink, spawnedPlayer i config sink p ∈ history) := by
  obtain ⟨config, sink, horder⟩ := h
  have hsplit : ([spawnedPlayer i config sink p] ++ [endedSession i]).Sublist (history ++ [x]) :=
    horder
  rcases sublist_snoc hsplit with hbefore | ⟨hx, hspawn⟩
  · exact .inl ⟨config, sink, hbefore⟩
  · exact .inr ⟨hx.symm, config, sink, List.singleton_sublist.mp hspawn⟩

theorem reportsLate_snoc {x : (ι × Call Op.Res) ⊕ Deed} (h : ReportsLate (history ++ [x]) p) :
    ReportsLate history p ∨ ∃ i event, x = .inr (.reported p event) ∧ Outlived history i p := by
  obtain ⟨i, config, sink, event, horder⟩ := h
  have hsplit : ([spawnedPlayer i config sink p, endedSession i] ++
      [Sum.inr (Deed.reported p event)]).Sublist (history ++ [x]) := horder
  rcases sublist_snoc hsplit with hbefore | ⟨hx, hout⟩
  · exact .inl ⟨i, config, sink, event, hbefore⟩
  · exact .inr ⟨i, event, hx.symm, config, sink, hout⟩

end Order

theorem not_reportsLate_call {ι : Type} {history : History ι Op.Res Deed}
    (h : ∀ p, ¬ReportsLate history p) (step : ι × Call Op.Res)
    (p : Nat) : ¬ReportsLate (history ++ [.inl step]) p := by
  intro hlate
  rcases reportsLate_snoc hlate with hbefore | ⟨i, event, heq, _⟩
  · exact h p hbefore
  · cases heq

theorem outlived_spawned {ι : Type} {history : History ι Op.Res Deed} {i : ι} {p : Nat}
    (h : Outlived history i p) : ∃ config sink, spawnedPlayer i config sink p ∈ history := by
  obtain ⟨config, sink, horder⟩ := h
  exact ⟨config, sink, horder.subset List.mem_cons_self⟩

/-! ## What an operation leaves -/

namespace Custody

variable {g : Custody} {o : Op} (r : o.Res)

theorem afterCall_anchored (h : ∀ track, o ≠ .act (.setTrack track)) :
    (g.afterCall ⟨o, r⟩).anchored = g.anchored := by
  cases o with
  | ask query => cases query <;> rfl
  | act effect =>
    cases effect with
    | send event => cases event <;> rfl
    | setTrack track => exact absurd rfl (h track)
    | _ => rfl

theorem afterCall_closed (hclosed : g.isOpen = false)
    (h : ∀ rate channels peer, o ≠ .act (.send (.sessionStarted rate channels peer))) :
    (g.afterCall ⟨o, r⟩).isOpen = false := by
  cases o with
  | ask query => cases query <;> exact hclosed
  | act effect =>
    cases effect with
    | send event =>
      cases event with
      | sessionStarted rate channels peer => exact absurd rfl (h rate channels peer)
      | sessionEnded => rfl
      | _ => exact hclosed
    | _ => exact hclosed

/-- The track goes before the session's end. -/
theorem afterCall_kept (hpermits : g.permits o) (h : g.isOpen = false → g.anchored = false)
    (hclosed : (g.afterCall ⟨o, r⟩).isOpen = false) : (g.afterCall ⟨o, r⟩).anchored = false := by
  cases o with
  | ask query => cases query <;> exact h hclosed
  | act effect =>
    cases effect with
    | send event =>
      cases event with
      | sessionStarted rate channels peer => cases hclosed
      | sessionEnded => exact hpermits
      | _ => exact h hclosed
    | setTrack track =>
      cases track with
      | none => rfl
      | some track =>
        have hopen : g.isOpen = true := hpermits
        exact absurd (hopen.symm.trans hclosed) (by decide)
    | _ => exact h hclosed

theorem mem_unjoined_afterCall {p : Nat} (hp : p ∈ g.unjoined) (h : o ≠ .act (.join p)) :
    p ∈ (g.afterCall ⟨o, r⟩).unjoined := by
  cases o with
  | ask query =>
    cases query with
    | spawnPlayer config sink => exact List.mem_append_left _ hp
    | _ => exact hp
  | act effect =>
    cases effect with
    | send event => cases event <;> exact hp
    | join q =>
      have hne : p ≠ q := by
        rintro rfl
        exact h rfl
      exact (List.mem_erase_of_ne hne).mpr hp
    | _ => exact hp

end Custody

namespace World

variable {ι : Type} {w w' : World ι}

/-- Players were there before, each with its owner, its report and whether it has returned. -/
def Stems (w w' : World ι) : Prop := ∀ p t', w'.players p = some t' →
  ∃ t, w.players p = some t ∧ t'.owner = t.owner ∧ t'.exited = t.exited ∧ t'.unsent = t.unsent

theorem Stems.refl (w : World ι) : w.Stems w := fun _ t hp => ⟨t, hp, rfl, rfl, rfl⟩

theorem stems_onPlayer (w : World ι) (p : Nat) {f : Thread ι → Thread ι}
    (howner : ∀ t, (f t).owner = t.owner) (hexited : ∀ t, (f t).exited = t.exited)
    (hunsent : ∀ t, (f t).unsent = t.unsent) : w.Stems (w.onPlayer p f) := by
  intro q t' hq
  obtain ⟨t, ht, rfl⟩ := onPlayer_eq_some hq
  refine ⟨t, ht, ?_⟩
  split
  · exact ⟨howner t, hexited t, hunsent t⟩
  · exact ⟨rfl, rfl, rfl⟩

/-- No thread of connection `i` has a report left to send. -/
def Quiet [DecidableEq ι] (w : World ι) (i : ι) : Prop :=
  ∀ p < w.fresh, ∀ t ∈ w.players p, t.owner = i → t.unsent = none

instance [DecidableEq ι] (w : World ι) (i : ι) : Decidable (w.Quiet i) :=
  inferInstanceAs (Decidable (∀ p < w.fresh, ∀ t ∈ w.players p, t.owner = i → t.unsent = none))

variable [DecidableEq ι] {decoders : AlacConfig → Option Player.Decoder}

theorem Replied.stems {i : ι} {o : Op} {r : o.Res} (h : Replied decoders i w o r w')
    (hspawn : ∀ config sink, o ≠ .ask (.spawnPlayer config sink)) : w.Stems w' := by
  cases h with
  | spawned => exact absurd rfl (hspawn _ _)
  | setStop | sentStop => exact stems_onPlayer w _ (fun _ => rfl) (fun _ => rfl) fun _ => rfl
  | _ => exact .refl w

theorem Replied.fresh_le {i : ι} {o : Op} {r : o.Res} (h : Replied decoders i w o r w') :
    w.fresh ≤ w'.fresh := by
  cases h <;> first | exact le_rfl | exact Nat.le_succ _

theorem Replied.track_eq {i : ι} {o : Op} {r : o.Res} (h : Replied decoders i w o r w')
    (hother : ∀ track, o ≠ .act (.setTrack track)) : w'.track = w.track := by
  cases h with
  | anchored => exact absurd rfl (hother _)
  | _ => rfl

end World

/-- Without an anchor there is nothing to report. -/
theorem Stepped.unsent_none {ι : Type} {decoders : AlacConfig → Option Player.Decoder}
    {track : Option Track} {p : Nat} {t t' : Thread ι} {deed : Deed}
    (h : Stepped decoders track p t deed t') (htrack : track = none) : t'.unsent = none := by
  cases h with
  | reported _ => rfl
  | played _ _ =>
    rw [htrack]
    rfl
  | _ => assumption

/-- A thread returns or panics only between two reports. -/
theorem Stepped.returned {ι : Type} {decoders : AlacConfig → Option Player.Decoder}
    {track : Option Track} {p : Nat} {t t' : Thread ι} {deed : Deed}
    (h : Stepped decoders track p t deed t') (hgoing : t.exited = false)
    (hexited : t'.exited = true) : t'.unsent = none := by
  cases h with
  | exited hunsent _ | panicked hunsent _ _ => exact hunsent
  | _ => exact absurd (hgoing.symm.trans hexited) (by decide)

/-- A step leaves the threads their owners, and none without an anchor a report to send. -/
theorem Moved.threads {ι : Type} [DecidableEq ι] {w w' : World ι}
    {decoders : AlacConfig → Option Player.Decoder} {decryptBlock : Rtp.Block → Bytes → Bytes}
    {deed : Deed} (h : Moved decoders decryptBlock w deed w') :
    w'.fresh = w.fresh ∧ ∀ p t', w'.players p = some t' →
      ∃ t, w.players p = some t ∧ t'.owner = t.owner ∧
        (t'.exited = false → t.exited = false) ∧
        (w.track t.owner = none → t.unsent = none → t'.unsent = none) ∧
        (t'.exited = true → (t.exited = true → t.unsent = none) → t'.unsent = none) := by
  have hstems : w.Stems w' → ∀ p t', w'.players p = some t' →
      ∃ t, w.players p = some t ∧ t'.owner = t.owner ∧
        (t'.exited = false → t.exited = false) ∧
        (w.track t.owner = none → t.unsent = none → t'.unsent = none) ∧
        (t'.exited = true → (t.exited = true → t.unsent = none) → t'.unsent = none) := by
    intro hstems p t' hp'
    obtain ⟨t, hp, howner, hexited, hunsent⟩ := hstems p t' hp'
    exact ⟨t, hp, howner, fun hgoing => hexited ▸ hgoing, fun _ hnone => hunsent.trans hnone,
      fun hdone hreturned => hunsent.trans (hreturned (hexited.symm.trans hdone))⟩
  cases h with
  | @stepped p t t' deed hp hgoing hstep =>
    refine ⟨rfl, ?_⟩
    intro q u hq
    by_cases hqp : q = p
    · subst hqp
      simp only [World.afterStep, Function.update_self] at hq
      cases hq
      exact ⟨t, hp, hstep.owner_eq, fun _ => hgoing, fun htrack _ => hstep.unsent_none htrack,
        fun hdone _ => hstep.returned hgoing hdone⟩
    · simp only [World.afterStep, Function.update_of_ne hqp] at hq
      exact ⟨u, hq, rfl, id, fun _ hnone => hnone, fun hdone hreturned => hreturned hdone⟩
  | turned _ _ => exact ⟨rfl, hstems (.refl w)⟩
  | @pushed _ t output _ _ _ =>
    cases output with
    | player command =>
      exact ⟨rfl, hstems (World.stems_onPlayer w _ (fun _ => rfl) (fun _ => rfl) fun _ => rfl)⟩
    | _ => exact ⟨rfl, hstems (.refl w)⟩
  | disconnected =>
    exact ⟨rfl, hstems (World.stems_onPlayer w _ (fun _ => rfl) (fun _ => rfl) fun _ => rfl)⟩

theorem Moved.track_eq {ι : Type} [DecidableEq ι] {w w' : World ι}
    {decoders : AlacConfig → Option Player.Decoder} {decryptBlock : Rtp.Block → Bytes → Bytes}
    {deed : Deed} (h : Moved decoders decryptBlock w deed w') : w'.track = w.track := by
  cases h with
  | @pushed _ _ output _ _ _ => cases output <;> rfl
  | _ => rfl

theorem Moved.reporter {ι : Type} [DecidableEq ι] {w w' : World ι}
    {decoders : AlacConfig → Option Player.Decoder} {decryptBlock : Rtp.Block → Bytes → Bytes}
    {p : Nat} {event : Event} (h : Moved decoders decryptBlock w (.reported p event) w') :
    ∃ t, w.players p = some t ∧ t.exited = false ∧ t.unsent = some event := by
  cases h with
  | stepped hp hgoing hstep =>
    cases hstep with
    | reported hunsent => exact ⟨_, hp, hgoing, hunsent⟩

/-! ## All connections at once -/

section Connections

variable {ι : Type} [DecidableEq ι] {history : History ι Op.Res Deed} {w w' : World ι}
  {decoders : AlacConfig → Option Player.Decoder} {decryptBlock : Rtp.Block → Bytes → Bytes}

/-- A connection without a session has no track. -/
structure TracksKept (history : History ι Op.Res Deed) (w : World ι) : Prop where
  anchored : ∀ i, (charge i history).anchored = (w.track i).isSome
  closed : ∀ i, (charge i history).isOpen = false → (charge i history).anchored = false

theorem TracksKept.start : TracksKept ([] : History ι Op.Res Deed) World.new :=
  ⟨fun _ => rfl, fun _ _ => rfl⟩

theorem TracksKept.none_of_closed (h : TracksKept history w) {i : ι}
    (hclosed : (charge i history).isOpen = false) : w.track i = none := by
  have hfree := h.closed i hclosed
  rw [h.anchored i] at hfree
  exact Option.isSome_eq_false_iff.mp hfree |> Option.isNone_iff_eq_none.mp

theorem TracksKept.call (h : TracksKept history w) {i : ι} {o : Op} {r : o.Res}
    (hpermits : (charge i history).permits o) (hreply : World.Replied decoders i w o r w') :
    TracksKept (history ++ [.inl (i, ⟨o, r⟩)]) w' := by
  constructor
  · intro j
    by_cases hset : ∃ track, o = .act (.setTrack track)
    · obtain ⟨track, rfl⟩ := hset
      cases hreply with
      | idle hidle => cases hidle
      | numbered heq => simp at heq
      | anchored =>
        by_cases hj : j = i
        · subst hj
          rw [charge_call_self]
          simp [Custody.afterCall]
        · rw [charge_call_of_ne _ hj, h.anchored j]
          simp [Function.update_of_ne hj]
    · have hother : ∀ track, o ≠ .act (.setTrack track) := fun track heq => hset ⟨track, heq⟩
      rw [hreply.track_eq hother, ← h.anchored j]
      by_cases hj : j = i
      · subst hj
        rw [charge_call_self, Custody.afterCall_anchored r hother]
      · rw [charge_call_of_ne _ hj]
  · intro j hclosed
    by_cases hj : j = i
    · subst hj
      rw [charge_call_self] at hclosed ⊢
      exact Custody.afterCall_kept r hpermits (h.closed j) hclosed
    · rw [charge_call_of_ne _ hj] at hclosed ⊢
      exact h.closed j hclosed

theorem TracksKept.move (h : TracksKept history w) {deed : Deed} (htrack : w'.track = w.track) :
    TracksKept (history ++ [.inr deed]) w' := by
  constructor
  · intro i
    rw [charge_move, htrack]
    exact h.anchored i
  · intro i
    rw [charge_move]
    exact h.closed i

/-- A thread that runs is one its owner has not joined, and one that has returned has nothing
left to report. -/
structure Attended (history : History ι Op.Res Deed) (w : World ι) : Prop where
  numbered : w.Numbered
  spawned : ∀ i config sink p, spawnedPlayer i config sink p ∈ history →
    p < w.fresh ∧ ∀ t, w.players p = some t → t.owner = i
  kept : ∀ p t, w.players p = some t → t.exited = false → p ∈ (charge t.owner history).unjoined
  returned : ∀ p t, w.players p = some t → t.exited = true → t.unsent = none

theorem Attended.start : Attended ([] : History ι Op.Res Deed) World.new where
  numbered := World.numbered_new
  spawned _ _ _ _ h := by cases h
  kept _ _ h := by cases h
  returned _ _ h := by cases h

theorem Attended.call (h : Attended history w) {i : ι} {o : Op} {r : o.Res}
    (hreply : World.Replied decoders i w o r w')
    (hspawn : ∀ config sink, o ≠ .ask (.spawnPlayer config sink)) :
    Attended (history ++ [.inl (i, ⟨o, r⟩)]) w' := by
  have hstems := hreply.stems hspawn
  refine ⟨h.numbered.replied hreply, ?_, ?_, ?_⟩
  · intro j config sink p hmem
    rcases List.mem_append.mp hmem with hold | hnew
    · obtain ⟨hp, howner⟩ := h.spawned j config sink p hold
      refine ⟨hp.trans_le hreply.fresh_le, ?_⟩
      intro t' ht'
      obtain ⟨t, ht, hsame, _⟩ := hstems p t' ht'
      exact hsame.trans (howner t ht)
    · cases List.mem_singleton.mp hnew
      exact absurd rfl (hspawn config sink)
  · intro p t' hp' hrunning
    obtain ⟨t, hp, howner, hexited, _⟩ := hstems p t' hp'
    have hmem := h.kept p t hp (hexited.symm.trans hrunning)
    rw [howner]
    by_cases hi : t.owner = i
    · subst hi
      rw [charge_call_self]
      apply Custody.mem_unjoined_afterCall r hmem
      rintro rfl
      cases hreply with
      | idle hidle => cases hidle
      | numbered heq => simp at heq
      | joined hq hdone =>
        -- the thread has returned by the time it is joined
        rw [hp'] at hq
        cases hq
        rw [hdone] at hrunning
        cases hrunning
    · rwa [charge_call_of_ne _ hi]
  · intro p t' hp' hdone
    obtain ⟨t, hp, _, hexited, hunsent⟩ := hstems p t' hp'
    exact hunsent.trans (h.returned p t hp (hexited.symm.trans hdone))

theorem Attended.call_spawnPlayer (h : Attended history w) {i : ι} {config : AlacConfig}
    {sink r : Nat} (hreply : World.Replied decoders i w (.ask (.spawnPlayer config sink)) r w') :
    Attended (history ++ [spawnedPlayer i config sink r]) w' := by
  have hnumbered := h.numbered.replied hreply
  cases hreply with
  | idle hidle => cases hidle
  | numbered heq => simp at heq
  | spawned =>
    refine ⟨hnumbered, ?_, ?_, ?_⟩
    · intro j config' sink' p hmem
      rcases List.mem_append.mp hmem with hold | hnew
      · obtain ⟨hp, howner⟩ := h.spawned j config' sink' p hold
        refine ⟨hp.trans (Nat.lt_succ_self _), ?_⟩
        intro t ht
        exact howner t (by simpa [Function.update_of_ne (Nat.ne_of_lt hp)] using ht)
      · cases List.mem_singleton.mp hnew
        refine ⟨Nat.lt_succ_self _, ?_⟩
        intro t ht
        simp only [Function.update_self] at ht
        cases ht
        rfl
    · intro p t hp hrunning
      by_cases hnew : p = w.fresh
      · subst hnew
        simp only [Function.update_self] at hp
        cases hp
        change w.fresh ∈ (charge i _).unjoined
        rw [charge_call_self]
        exact List.mem_append_right _ (List.mem_singleton_self _)
      · have hmem := h.kept p t (by simpa [Function.update_of_ne hnew] using hp) hrunning
        by_cases hi : t.owner = i
        · subst hi
          rw [charge_call_self]
          exact Custody.mem_unjoined_afterCall _ hmem (by simp)
        · rwa [charge_call_of_ne _ hi]
    · intro p t hp hdone
      by_cases hnew : p = w.fresh
      · subst hnew
        simp only [Function.update_self] at hp
        cases hp
        rfl
      · exact h.returned p t (by simpa [Function.update_of_ne hnew] using hp) hdone

theorem Attended.move (h : Attended history w) {deed : Deed}
    (hmove : Moved decoders decryptBlock w deed w') : Attended (history ++ [.inr deed]) w' := by
  obtain ⟨hfresh, hthreads⟩ := hmove.threads
  refine ⟨h.numbered.moved hmove, ?_, ?_, ?_⟩
  · intro i config sink p hmem
    rcases List.mem_append.mp hmem with hold | hnew
    · obtain ⟨hp, howner⟩ := h.spawned i config sink p hold
      refine ⟨hfresh ▸ hp, ?_⟩
      intro t' ht'
      obtain ⟨t, ht, hsame, _⟩ := hthreads p t' ht'
      exact hsame.trans (howner t ht)
    · cases List.mem_singleton.mp hnew
  · intro p t' hp' hrunning
    obtain ⟨t, hp, howner, hgoing, _⟩ := hthreads p t' hp'
    rw [howner, charge_move]
    exact h.kept p t hp (hgoing hrunning)
  · intro p t' hp' hdone
    obtain ⟨t, hp, _, _, _, hreturned⟩ := hthreads p t' hp'
    exact hreturned hdone (h.returned p t hp)

/-- Without threads to join there is nobody left to report. -/
theorem Attended.quiet (h : Attended history w) {i : ι}
    (hjoined : (charge i history).unjoined = []) : w.Quiet i := by
  intro p _ t hp howner
  subst howner
  cases hexited : t.exited with
  | true => exact h.returned p t hp hexited
  | false =>
    have hmem := h.kept p t hp hexited
    rw [hjoined] at hmem
    cases hmem

/-- A thread that outlives its session has nothing to report, and none has reported late. -/
structure Prompt (history : History ι Op.Res Deed) (w : World ι) : Prop
    extends TracksKept history w, Attended history w where
  outlived : ∀ p t, w.players p = some t → t.exited = false → Outlived history t.owner p →
    (charge t.owner history).isOpen = false ∧ t.unsent = none
  prompt : ∀ p, ¬ReportsLate history p

theorem Prompt.start : Prompt ([] : History ι Op.Res Deed) World.new where
  toTracksKept := .start
  toAttended := .start
  outlived _ _ h := by cases h
  prompt p h := by
    obtain ⟨_, _, _, _, horder⟩ := h
    cases horder

theorem Prompt.call (h : Prompt history w) {i : ι} {o : Op} {r : o.Res}
    (hpermits : (charge i history).permits o) (hreply : World.Replied decoders i w o r w')
    (hspawn : ∀ config sink, o ≠ .ask (.spawnPlayer config sink))
    (hquiet : o = .act (.send .sessionEnded) → w.Quiet i) :
    Prompt (history ++ [.inl (i, ⟨o, r⟩)]) w' := by
  refine ⟨h.toTracksKept.call hpermits hreply, h.toAttended.call hreply hspawn, ?_,
    not_reportsLate_call h.prompt _⟩
  intro p t' hp' hrunning hout
  obtain ⟨t, hp, howner, hexited, hunsent⟩ := hreply.stems hspawn p t' hp'
  have hgoing := hexited.symm.trans hrunning
  rw [howner] at hout ⊢
  rw [hunsent]
  rcases outlived_snoc hout with hbefore | ⟨heq, _⟩
  · obtain ⟨hclosed, hnone⟩ := h.outlived p t hp hgoing hbefore
    refine ⟨?_, hnone⟩
    by_cases hi : t.owner = i
    · subst hi
      rw [charge_call_self]
      apply Custody.afterCall_closed r hclosed
      rintro rate channels peer rfl
      -- a new session waits for this thread
      rcases hpermits.2 with hopen | hjoined
      · rw [hclosed] at hopen
        cases hopen
      · have hmem := h.kept p t hp hgoing
        rw [hjoined] at hmem
        cases hmem
    · rwa [charge_call_of_ne _ hi]
  · obtain ⟨rfl, hcall⟩ := Prod.mk.inj (Sum.inl.inj heq)
    cases hcall
    refine ⟨?_, hquiet rfl p (h.numbered.players p t hp) t hp rfl⟩
    rw [charge_call_self]
    rfl

theorem Prompt.call_spawnPlayer (h : Prompt history w) {i : ι} {config : AlacConfig}
    {sink r : Nat} (hpermits : (charge i history).permits (.ask (.spawnPlayer config sink)))
    (hreply : World.Replied decoders i w (.ask (.spawnPlayer config sink)) r w') :
    Prompt (history ++ [spawnedPlayer i config sink r]) w' := by
  refine ⟨h.toTracksKept.call hpermits hreply, h.toAttended.call_spawnPlayer hreply, ?_,
    not_reportsLate_call h.prompt _⟩
  intro p t hp hrunning hout
  have hbefore : Outlived history t.owner p := by
    rcases outlived_snoc hout with hbefore | ⟨heq, _⟩
    · exact hbefore
    · cases heq
  cases hreply with
  | idle hidle => cases hidle
  | numbered heq => simp at heq
  | spawned =>
    by_cases hnew : p = w.fresh
    · subst hnew
      obtain ⟨config', sink', hmem⟩ := outlived_spawned hbefore
      exact absurd (h.spawned _ _ _ _ hmem).1 (lt_irrefl _)
    · obtain ⟨hclosed, hnone⟩ := h.outlived p t
        (by simpa [Function.update_of_ne hnew] using hp) hrunning hbefore
      refine ⟨?_, hnone⟩
      by_cases hi : t.owner = i
      · rw [hi] at hclosed ⊢
        rw [charge_call_self]
        exact Custody.afterCall_closed _ hclosed (by simp)
      · rwa [charge_call_of_ne _ hi]

theorem Prompt.ofSlot (h : Prompt history w) (slot : Bool) :
    Prompt history { w with slot := slot } where
  anchored := h.anchored
  closed := h.closed
  numbered := ⟨h.numbered.players, h.numbered.tasks, h.numbered.sinks⟩
  spawned := h.spawned
  kept := h.kept
  returned := h.returned
  outlived := h.outlived
  prompt := h.prompt

theorem Prompt.replied (h : Prompt history w) {i : ι} {o : Op} {r : o.Res}
    (hpermits : (charge i history).permits o) (hcall : w.call decoders i o r = some w')
    (hquiet : o = .act (.send .sessionEnded) → w.Quiet i) :
    Prompt (history ++ [.inl (i, ⟨o, r⟩)]) w' := by
  obtain ⟨slot, w₁, _, hreply, rfl⟩ := World.call_eq_some hcall
  have hstep : Prompt (history ++ [.inl (i, ⟨o, r⟩)]) w₁ := by
    by_cases hspawn : ∃ config sink, o = .ask (.spawnPlayer config sink)
    · obtain ⟨config, sink, rfl⟩ := hspawn
      exact h.call_spawnPlayer hpermits hreply
    · have hspawn' : ∀ config sink, o ≠ .ask (.spawnPlayer config sink) :=
        fun config sink heq => hspawn ⟨config, sink, heq⟩
      exact h.call hpermits hreply hspawn' hquiet
  exact hstep.ofSlot slot

theorem Prompt.move (h : Prompt history w) {deed : Deed}
    (hmove : Moved decoders decryptBlock w deed w') : Prompt (history ++ [.inr deed]) w' := by
  obtain ⟨_, hthreads⟩ := hmove.threads
  have hearlier : ∀ {i p}, Outlived (history ++ [.inr deed]) i p → Outlived history i p := by
    intro i p hout
    rcases outlived_snoc hout with hbefore | ⟨heq, _⟩
    · exact hbefore
    · cases heq
  refine ⟨h.toTracksKept.move hmove.track_eq, h.toAttended.move hmove, ?_, ?_⟩
  · intro p t' hp' hrunning hout
    obtain ⟨t, hp, howner, hgoing, hunsent, _⟩ := hthreads p t' hp'
    rw [howner] at hout ⊢
    obtain ⟨hclosed, hnone⟩ := h.outlived p t hp (hgoing hrunning) (hearlier hout)
    rw [charge_move]
    exact ⟨hclosed, hunsent (h.none_of_closed hclosed) hnone⟩
  · intro p hlate
    rcases reportsLate_snoc hlate with hbefore | ⟨i, event, heq, hout⟩
    · exact h.prompt p hbefore
    · cases heq
      obtain ⟨t, hp, hgoing, hunsent⟩ := hmove.reporter
      obtain ⟨config, sink, hmem⟩ := outlived_spawned hout
      obtain rfl := (h.spawned i config sink p hmem).2 t hp
      rw [(h.outlived p t hp hgoing hout).2] at hunsent
      cases hunsent

end Connections

/-! ## Every run -/

/-- A session that ends when its threads are joined, as TEARDOWN does it, gets no late report:
what is left is the connection that is dropped. -/
theorem not_reportsLate_of_joined {ι : Type} [DecidableEq ι]
    {decoders : AlacConfig → Option Player.Decoder} {decryptBlock : Rtp.Block → Bytes → Bytes}
    {ctx : ι → Context} {observer : Bool} {peerIp : ι → IpAddr} {requests : ι → List Request}
    {history : History ι Op.Res Deed} {c : Pool ι Op Op.Res (List Response) (World ι)}
    (h : Happens decoders decryptBlock (fun _ _ _ => True)
      (receivers ctx observer peerIp requests) history c)
    (hjoined : ∀ pre i, pre ++ [endedSession i] <+: history → (charge i pre).unjoined = []) :
    ∀ p, ¬ReportsLate history p := by
  have hprompt : (∀ pre i, pre ++ [endedSession i] <+: history →
      (charge i pre).unjoined = []) → Prompt history c.shared := by
    refine h.invariant (receivers_obey ctx observer peerIp requests)
      (fun history w => (∀ pre i, pre ++ [endedSession i] <+: history →
        (charge i pre).unjoined = []) → Prompt history w) (fun _ => .start) ?_ ?_
    · intro history w i o r w' ih hpermits ⟨_, hcall⟩ hjoined
      have hbefore := ih fun pre j hpre => hjoined pre j (hpre.trans (List.prefix_append _ _))
      apply hbefore.replied hpermits hcall
      rintro rfl
      exact hbefore.quiet (hjoined history i List.prefix_rfl)
    · intro history w deed w' ih ⟨m, hmove⟩ hjoined
      have hbefore := ih fun pre j hpre => hjoined pre j (hpre.trans (List.prefix_append _ _))
      exact hbefore.move (World.moved hmove)
  exact (hprompt hjoined).prompt

/-- A session is ended only while the connection's threads have no report left to send. -/
def endsQuietly {ι : Type} [DecidableEq ι] (i : ι) (w : World ι) : Op → Bool
  | .act (.send .sessionEnded) => decide (w.Quiet i)
  | _ => true

/-- No thread reports after its session's end, and no connection while it has no session. -/
theorem progress_within_session {ι : Type} [DecidableEq ι]
    (decoders : AlacConfig → Option Player.Decoder) (decryptBlock : Rtp.Block → Bytes → Bytes)
    (ctx : ι → Context) (observer : Bool) (peerIp : ι → IpAddr) (requests : ι → List Request)
    (history : History ι Op.Res Deed) (c : Pool ι Op Op.Res (List Response) (World ι))
    (h : Happens decoders decryptBlock (fun i w o => endsQuietly i w o)
      (receivers ctx observer peerIp requests) history c) :
    (∀ p, ¬ReportsLate history p) ∧
      ∀ pre i elapsed duration,
        pre ++ [.inl (i, did (.send (.progress elapsed duration)))] <+: history →
          (charge i pre).isOpen = true := by
  have hobey := receivers_obey ctx observer peerIp requests
  constructor
  · have hprompt : Prompt history c.shared := by
      refine h.invariant hobey Prompt .start ?_ ?_
      · intro history w i o r w' hprompt hpermits ⟨hcareful, hcall⟩
        apply hprompt.replied hpermits hcall
        rintro rfl
        exact of_decide_eq_true hcareful
      · intro history w deed w' hprompt ⟨m, hmove⟩
        exact hprompt.move (World.moved hmove)
    exact hprompt.prompt
  · intro pre i elapsed duration hpre
    exact h.allowed_of_prefix hobey hpre

/-- A track of ten seconds, at its start. -/
def progressRequest : Request :=
  ⟨"SET_PARAMETER", "rtsp://192.168.1.10/1", [("Content-Type", "text/parameters")],
    Text.utf8 "progress: 1000/1000/442000\r\n"⟩

def firstPacket : Bytes := [0x80, 0x60, 0, 1, 0, 0, 3, 0xe8, 0, 0, 0, 0, 0x20]

/-- Up to the thread's look at the anchor for the first packet. -/
def playing : List (Unit ⊕ Move) :=
  List.replicate 10 (.inl ()) ++
    [.inr (.audio 2 (.audio firstPacket)), .inr (.push 2), .inr (.player 1), .inr (.player 1),
      .inr (.player 1)]

/-- The client is gone once the report is sent. -/
def goneLater : Pool Unit Op Op.Res (List Response) (World Unit) × History Unit Op.Res Deed :=
  lone [announceRequest, setupRequest, progressRequest] (fun i w o => endsQuietly i w o)
    (playing ++ .inr (.player 1) :: List.replicate 5 (.inl ()))

theorem progress_within_session_played :
    (∀ p, ¬ReportsLate goneLater.2 p) ∧
      ∀ pre i elapsed duration,
        pre ++ [.inl (i, did (.send (.progress elapsed duration)))] <+: goneLater.2 →
          (charge i pre).isOpen = true :=
  progress_within_session anyDecoder (fun _ body => body) (fun _ => openContext) false
    (fun _ => client.peerIp) (fun _ => [announceRequest, setupRequest, progressRequest])
    goneLater.2 _ (lone_happens _ _ _)

/-- The client is gone before the report is sent. -/
def goneEarly : Pool Unit Op Op.Res (List Response) (World Unit) × History Unit Op.Res Deed :=
  lone [announceRequest, setupRequest, progressRequest] (fun _ _ _ => True)
    (playing ++ List.replicate 5 (.inl ()) ++ [.inr (.player 1)])

/-- The thread had its report when the connection was dropped, and sends it after the end. -/
theorem progress_after_end :
    Happens anyDecoder (fun _ body => body) (fun _ _ _ => True)
        (receivers (fun _ => openContext) false (fun _ => client.peerIp) fun _ =>
          [announceRequest, setupRequest, progressRequest])
        goneEarly.2 goneEarly.1 ∧
      ReportsLate goneEarly.2 1 :=
  ⟨lone_happens _ _ _, (),
    ⟨352, 16, 2, 44100, #v[96, 352, 0, 16, 40, 10, 14, 2, 255, 0, 0, 44100]⟩, 0, .progress 0 10,
    by decide +kernel⟩

end OpenAirplay
