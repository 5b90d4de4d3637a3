import OpenAirplay.Streams

/-!
# One sink at a time

A sink is alive from the moment the factory makes it until the playback thread it was given
to returns. It belongs to a connection all that time, and that connection holds the slot.
-/

namespace OpenAirplay

open Ownership Program

set_option autoImplicit false

/-! ## Where a sink is -/

namespace World

variable {ι : Type} {w w' : World ι}

/-- Players stay, each with its sink and still running if it was. -/
def Keeps (w w' : World ι) : Prop := ∀ p t, w.players p = some t →
  ∃ t', w'.players p = some t' ∧ t'.sink = t.sink ∧ t'.exited = t.exited

theorem Keeps.refl (w : World ι) : w.Keeps w := fun _ t hp => ⟨t, hp, rfl, rfl⟩

theorem keeps_onPlayer (w : World ι) (p : Nat) {f : Thread ι → Thread ι}
    (hsink : ∀ t, (f t).sink = t.sink) (hexited : ∀ t, (f t).exited = t.exited) :
    w.Keeps (w.onPlayer p f) := by
  intro q t hq
  refine ⟨_, onPlayer_of_some f hq, ?_, ?_⟩
  · split
    · exact hsink t
    · rfl
  · split
    · exact hexited t
    · rfl

theorem Replied.keeps [DecidableEq ι] {decoders : AlacConfig → Option Player.Decoder} {i : ι}
    {o : Op} {r : o.Res} (h : Replied decoders i w o r w') (hnumbered : w.Numbered) :
    w.Keeps w' := by
  cases h with
  | spawned =>
    intro p t hp
    have hne : p ≠ w.fresh := Nat.ne_of_lt (hnumbered.players p t hp)
    exact ⟨t, by simpa [Function.update_of_ne hne] using hp, rfl, rfl⟩
  | setStop | sentStop => exact keeps_onPlayer w _ (fun _ => rfl) fun _ => rfl
  | _ => exact .refl w

theorem Replied.sinks_eq [DecidableEq ι] {decoders : AlacConfig → Option Player.Decoder} {i : ι}
    {o : Op} {r : o.Res} (h : Replied decoders i w o r w')
    (hother : ∀ rate channels, o ≠ .ask (.makeSink rate channels)) : w'.sinks = w.sinks := by
  cases h with
  | madeSink => exact absurd rfl (hother _ _)
  | _ => rfl

/-- In the hands of the connection, or with a running thread it has not joined. -/
def Placed (w : World ι) (g : Custody) (k : Nat) : Prop :=
  g.loose = some k ∨
    ∃ p t, p ∈ g.unjoined ∧ w.players p = some t ∧ t.exited = false ∧ t.sink = k

theorem Placed.keeps {g : Custody} {k : Nat} (h : w.Placed g k) (hkeeps : w.Keeps w') :
    w'.Placed g k := by
  rcases h with hloose | ⟨p, t, hmem, hp, hrunning, hsink⟩
  · exact .inl hloose
  · obtain ⟨t', hp', hsink', hexited⟩ := hkeeps p t hp
    exact .inr ⟨p, t', hmem, hp', hexited.trans hrunning, hsink'.trans hsink⟩

end World

namespace Custody

/-- At most one sink is with the connection, and none without the slot. -/
structure Single (g : Custody) : Prop where
  again : g.again = false
  single : (g.loose = none ∧ g.unjoined.length ≤ 1) ∨ g.unjoined = []
  held : g.holds = false → g.loose = none ∧ g.unjoined = []

/-- What an operation does that neither makes a sink nor a player nor joins one. -/
theorem steady {g : Custody} {o : Op} (hpermits : g.permits o) (r : o.Res) (h : g.Single)
    (hfirst : ∀ rate channels peer,
      o = .act (.send (.sessionStarted rate channels peer)) → g.isOpen = false)
    (hsink : ∀ rate channels, o ≠ .ask (.makeSink rate channels))
    (hspawn : ∀ config sink, o ≠ .ask (.spawnPlayer config sink))
    (hjoin : ∀ p, o ≠ .act (.join p)) :
    (g.afterCall ⟨o, r⟩).loose = g.loose ∧ (g.afterCall ⟨o, r⟩).unjoined = g.unjoined ∧
      (g.afterCall ⟨o, r⟩).Single := by
  cases o with
  | ask query =>
    cases query with
    | compareExchange =>
      refine ⟨rfl, rfl, h.again, h.single, ?_⟩
      intro _
      exact h.held hpermits
    | makeSink rate channels => exact absurd rfl (hsink rate channels)
    | spawnPlayer config sink => exact absurd rfl (hspawn config sink)
    | _ => exact ⟨rfl, rfl, h.again, h.single, h.held⟩
  | act effect =>
    cases effect with
    | send event =>
      cases event with
      | sessionStarted rate channels peer =>
        exact ⟨rfl, rfl, hfirst rate channels peer rfl, h.single, h.held⟩
      | _ => exact ⟨rfl, rfl, h.again, h.single, h.held⟩
    | releaseSlot => exact ⟨rfl, rfl, h.again, h.single, fun _ => hpermits.2⟩
    | join p => exact absurd rfl (hjoin p)
    | _ => exact ⟨rfl, rfl, h.again, h.single, h.held⟩

end Custody

theorem Stepped.sink_eq {ι : Type} {decoders : AlacConfig → Option Player.Decoder}
    {track : Option Track} {p : Nat} {t t' : Thread ι} {deed : Deed}
    (h : Stepped decoders track p t deed t') : t'.sink = t.sink := by
  cases h <;> rfl

/-! ## All connections at once -/

section Connections

variable {ι : Type} {γ : ι → Custody} {w w' : World ι}

/-- The slot has at most one owner, and every sink that is alive is with it. -/
structure SinksHeld (γ : ι → Custody) (w : World ι) : Prop where
  owned : Owned (fun i => (γ i).holds) w.slot
  numbered : w.Numbered
  nodup : w.sinks.Nodup
  placed : ∀ k ∈ w.sinks, ∃ i, w.Placed (γ i) k
  single : ∀ i, (γ i).Single

theorem SinksHeld.start : SinksHeld (fun _ : ι => Custody.empty) World.new where
  owned := .start
  numbered := World.numbered_new
  nodup := List.nodup_nil
  placed _ h := by cases h
  single _ := ⟨rfl, .inl ⟨rfl, Nat.zero_le _⟩, fun _ => ⟨rfl, rfl⟩⟩

theorem World.Placed.unique {g : Custody} {k l : Nat} (h : g.Single) (hk : w.Placed g k)
    (hl : w.Placed g l) : k = l := by
  have halone : ∀ p q, p ∈ g.unjoined → q ∈ g.unjoined → g.loose = none ∧ p = q := by
    intro p q hp hq
    rcases h.single with ⟨hloose, hlength⟩ | hnone
    · refine ⟨hloose, ?_⟩
      obtain ⟨m, hm⟩ := List.length_eq_one_iff.mp (le_antisymm hlength (List.length_pos_of_mem hp))
      rw [hm, List.mem_singleton] at hp hq
      rw [hp, hq]
    · rw [hnone] at hp
      cases hp
  rcases hk with hk | ⟨p, t, hp, hpt, _, rfl⟩
  · rcases hl with hl | ⟨q, u, hq, _⟩
    · exact Option.some.inj (hk.symm.trans hl)
    · obtain ⟨hloose, _⟩ := halone q q hq hq
      rw [hk] at hloose
      cases hloose
  · rcases hl with hl | ⟨q, u, hq, hqu, _, rfl⟩
    · obtain ⟨hloose, _⟩ := halone p p hp hp
      rw [hl] at hloose
      cases hloose
    · obtain ⟨_, rfl⟩ := halone p q hp hq
      rw [hpt] at hqu
      cases hqu
      rfl

theorem World.Placed.holds {g : Custody} {k : Nat} (h : g.Single) (hk : w.Placed g k) :
    g.holds = true := by
  cases hholds : g.holds with
  | true => rfl
  | false =>
    obtain ⟨hloose, hunjoined⟩ := h.held hholds
    rcases hk with hk | ⟨p, t, hp, _⟩
    · rw [hloose] at hk
      cases hk
    · rw [hunjoined] at hp
      cases hp

theorem SinksHeld.length_le_one (h : SinksHeld γ w) : w.sinks.length ≤ 1 := by
  have hsame : ∀ k ∈ w.sinks, ∀ l ∈ w.sinks, k = l := by
    intro k hk l hl
    obtain ⟨i, hi⟩ := h.placed k hk
    obtain ⟨j, hj⟩ := h.placed l hl
    have hij := h.owned.unique i j (hi.holds (h.single i)) (hj.holds (h.single j))
    exact World.Placed.unique (h.single i) hi (hij ▸ hj)
  have hnodup := h.nodup
  cases hsinks : w.sinks with
  | nil => exact Nat.zero_le _
  | cons k rest =>
    cases rest with
    | nil => exact le_rfl
    | cons l rest =>
      rw [hsinks] at hsame hnodup
      obtain rfl := hsame k List.mem_cons_self l (List.mem_cons_of_mem _ List.mem_cons_self)
      simp at hnodup

theorem SinksHeld.keeps (h : SinksHeld γ w) (hslot : w'.slot = w.slot)
    (hsinks : w'.sinks = w.sinks) (hkeeps : w.Keeps w') (hnumbered : w'.Numbered) :
    SinksHeld γ w' := by
  refine ⟨hslot ▸ h.owned, hnumbered, hsinks ▸ h.nodup, ?_, h.single⟩
  intro k hk
  obtain ⟨i, hi⟩ := h.placed k (hsinks ▸ hk)
  exact ⟨i, hi.keeps hkeeps⟩

/-! ## One step -/

/-- A thread that returns drops its sink, whichever it is; otherwise nothing moves. -/
theorem SinksHeld.step (h : SinksHeld γ w) {p : Nat} {t t' : Thread ι} (hp : w.players p = some t)
    (hsink : t'.sink = t.sink) : SinksHeld γ (w.afterStep p t') := by
  have hnumbered := h.numbered.setPlayer (h.numbered.players p t hp) t'
  have hsub : (w.afterStep p t').sinks.Sublist w.sinks := by
    unfold World.afterStep
    split
    · exact List.erase_sublist
    · exact List.Sublist.refl _
  refine ⟨h.owned, ⟨hnumbered.players, hnumbered.tasks, ?_⟩, h.nodup.sublist hsub, ?_, h.single⟩
  · intro k hk
    exact h.numbered.sinks k (hsub.subset hk)
  · intro k hk
    obtain ⟨i, hi⟩ := h.placed k (hsub.subset hk)
    refine ⟨i, ?_⟩
    rcases hi with hloose | ⟨q, u, hq, hqu, hgoing, rfl⟩
    · exact .inl hloose
    · by_cases hqp : q = p
      · subst hqp
        rw [hp] at hqu
        cases hqu
        cases hexited : t'.exited with
        | false => exact .inr ⟨q, t', hq, Function.update_self .., hexited, hsink⟩
        | true =>
          unfold World.afterStep at hk
          rw [if_pos hexited, hsink] at hk
          exact absurd hk h.nodup.not_mem_erase
      · refine .inr ⟨q, u, hq, ?_, hgoing, rfl⟩
        change Function.update w.players p (some t') q = some u
        rw [Function.update_of_ne hqp]
        exact hqu

variable [DecidableEq ι] {decoders : AlacConfig → Option Player.Decoder}
  {decryptBlock : Rtp.Block → Bytes → Bytes}

theorem owned_call (h : Owned (fun i => (γ i).holds) w.slot) {i : ι} {call : Call Op.Res}
    {slot : Bool} (hpermits : (γ i).permits call.1) (hslot : slotAfter w.slot call = some slot) :
    Owned (fun j => (Function.update γ i ((γ i).afterCall call) j).holds) slot := by
  have htakes := takes_call (Custody.conduct_of_permits hpermits) hslot
  rw [← Custody.afterCall_toHold] at htakes
  have howned := h.takes htakes
  have hsame : (fun j => (Function.update γ i ((γ i).afterCall call) j).holds) =
      Function.update (fun j => (γ j).holds) i ((γ i).afterCall call).holds := by
    funext j
    exact Function.apply_update (fun _ g => Custody.toHold g |>.holds) γ i _ j
  rw [hsame]
  exact howned

/-- What connection `i` does leaves the sinks of the others where they are. -/
theorem placed_call {i : ι} {g' : Custody} (hkeeps : w.Keeps w')
    (hself : ∀ k, w.Placed (γ i) k → k ∈ w'.sinks → w'.Placed g' k)
    {k : Nat} (hk : k ∈ w'.sinks) (h : ∃ j, w.Placed (γ j) k) :
    ∃ j, w'.Placed (Function.update γ i g' j) k := by
  obtain ⟨j, hj⟩ := h
  refine ⟨j, ?_⟩
  by_cases hij : j = i
  · subst hij
    rw [Function.update_self]
    exact hself k hj hk
  · rw [Function.update_of_ne hij]
    exact hj.keeps hkeeps

theorem single_call {i : ι} {g' : Custody} (h : ∀ j, (γ j).Single) (hi : g'.Single) (j : ι) :
    (Function.update γ i g' j).Single := by
  by_cases hij : j = i
  · subst hij
    rwa [Function.update_self]
  · rw [Function.update_of_ne hij]
    exact h j

theorem SinksHeld.call_steady (h : SinksHeld γ w) {i : ι} {o : Op} {r : o.Res}
    (hpermits : (γ i).permits o) (hcall : w.call decoders i o r = some w')
    (hfirst : ∀ rate channels peer,
      o = .act (.send (.sessionStarted rate channels peer)) → (γ i).isOpen = false)
    (hsink : ∀ rate channels, o ≠ .ask (.makeSink rate channels))
    (hspawn : ∀ config sink, o ≠ .ask (.spawnPlayer config sink))
    (hjoin : ∀ p, o ≠ .act (.join p)) :
    SinksHeld (Function.update γ i ((γ i).afterCall ⟨o, r⟩)) w' := by
  obtain ⟨slot, w₁, hslot, hreply, rfl⟩ := World.call_eq_some hcall
  obtain ⟨hloose, hunjoined, hkept⟩ :=
    Custody.steady hpermits r (h.single i) hfirst hsink hspawn hjoin
  have hkeeps : w.Keeps { w₁ with slot := slot } := hreply.keeps h.numbered
  have hsinks : w₁.sinks = w.sinks := hreply.sinks_eq hsink
  have hnumbered := h.numbered.replied hreply
  refine ⟨owned_call h.owned hpermits hslot,
    ⟨hnumbered.players, hnumbered.tasks, hnumbered.sinks⟩, ?_, ?_, single_call h.single hkept⟩
  · change w₁.sinks.Nodup
    rw [hsinks]
    exact h.nodup
  · intro k hk
    refine placed_call hkeeps ?_ hk (h.placed k (hsinks ▸ hk))
    intro l hl _
    have hsame := hl.keeps hkeeps
    unfold World.Placed at hsame ⊢
    rwa [hloose, hunjoined]

theorem SinksHeld.call_makeSink (h : SinksHeld γ w) {i : ι} {rate : U32} {channels : BitVec 8}
    {r : Nat} (hpermits : (γ i).permits (.ask (.makeSink rate channels)))
    (hcall : w.call decoders i (.ask (.makeSink rate channels)) r = some w') :
    SinksHeld (Function.update γ i ((γ i).afterCall ⟨.ask (.makeSink rate channels), r⟩)) w' := by
  obtain ⟨slot, w₁, hslot, hreply, rfl⟩ := World.call_eq_some hcall
  have hkeeps : w.Keeps { w₁ with slot := slot } := hreply.keeps h.numbered
  have hnumbered := h.numbered.replied hreply
  have hholds : (γ i).holds = true := hpermits.1
  have hloose : (γ i).loose = none := hpermits.2.2.1
  have hsingle := h.single i
  have hnone : (γ i).unjoined = [] := by
    rcases hpermits.2.2.2 with hagain | hnone
    · rw [hsingle.again] at hagain
      cases hagain
    · exact hnone
  cases hreply with
  | idle hidle => cases hidle
  | numbered heq => simp at heq
  | madeSink =>
    refine ⟨owned_call h.owned hpermits hslot,
      ⟨hnumbered.players, hnumbered.tasks, hnumbered.sinks⟩, ?_, ?_, single_call h.single ?_⟩
    · refine List.nodup_cons.mpr ⟨?_, h.nodup⟩
      intro hmem
      exact lt_irrefl _ (h.numbered.sinks _ hmem)
    · intro k hk
      rcases List.mem_cons.mp hk with rfl | hold
      · refine ⟨i, .inl ?_⟩
        rw [Function.update_self]
        rfl
      · refine placed_call hkeeps ?_ hk (h.placed k hold)
        -- whatever was with this connection would be a second sink
        intro l hl _
        rcases hl with hl | ⟨p, _, hp, _⟩
        · rw [hloose] at hl
          cases hl
        · rw [hnone] at hp
          cases hp
    · refine ⟨hsingle.again, .inr hnone, ?_⟩
      intro hfree
      change (γ i).holds = false at hfree
      rw [hholds] at hfree
      cases hfree

theorem SinksHeld.call_spawnPlayer (h : SinksHeld γ w) {i : ι} {config : AlacConfig} {sink : Nat}
    {r : Nat} (hpermits : (γ i).permits (.ask (.spawnPlayer config sink)))
    (hcall : w.call decoders i (.ask (.spawnPlayer config sink)) r = some w') :
    SinksHeld (Function.update γ i ((γ i).afterCall ⟨.ask (.spawnPlayer config sink), r⟩)) w' := by
  obtain ⟨slot, w₁, hslot, hreply, rfl⟩ := World.call_eq_some hcall
  have hkeeps : w.Keeps { w₁ with slot := slot } := hreply.keeps h.numbered
  have hnumbered := h.numbered.replied hreply
  have hloose : (γ i).loose = some sink := hpermits.2
  have hsingle := h.single i
  have hnone : (γ i).unjoined = [] := by
    rcases hsingle.single with ⟨hfree, _⟩ | hnone
    · rw [hloose] at hfree
      cases hfree
    · exact hnone
  cases hreply with
  | idle hidle => cases hidle
  | numbered heq => simp at heq
  | spawned =>
    refine ⟨owned_call h.owned hpermits hslot,
      ⟨hnumbered.players, hnumbered.tasks, hnumbered.sinks⟩, h.nodup, ?_, single_call h.single ?_⟩
    · intro k hk
      refine placed_call hkeeps ?_ hk (h.placed k hk)
      intro l hl _
      rcases hl with hl | ⟨p, _, hp, _⟩
      · rw [hloose] at hl
        cases hl
        refine .inr ⟨w.fresh, _, ?_, Function.update_self .., rfl, rfl⟩
        exact List.mem_append_right _ (List.mem_singleton_self _)
      · rw [hnone] at hp
        cases hp
    · refine ⟨hsingle.again, .inl ⟨rfl, ?_⟩, ?_⟩
      · simp [Custody.afterCall, hnone]
      · intro hfree
        obtain ⟨hfree, _⟩ := hsingle.held hfree
        rw [hloose] at hfree
        cases hfree

theorem SinksHeld.call_join (h : SinksHeld γ w) {i : ι} {p : Nat} {r : Unit}
    (hpermits : (γ i).permits (.act (.join p)))
    (hcall : w.call decoders i (.act (.join p)) r = some w') :
    SinksHeld (Function.update γ i ((γ i).afterCall ⟨.act (.join p), r⟩)) w' := by
  obtain ⟨slot, w₁, hslot, hreply, rfl⟩ := World.call_eq_some hcall
  have hkeeps : w.Keeps { w₁ with slot := slot } := hreply.keeps h.numbered
  have hnumbered := h.numbered.replied hreply
  have hsingle := h.single i
  cases hreply with
  | idle hidle => cases hidle
  | numbered heq => simp at heq
  | @joined _ t _ hp hexited =>
    refine ⟨owned_call h.owned hpermits hslot,
      ⟨hnumbered.players, hnumbered.tasks, hnumbered.sinks⟩, h.nodup, ?_, single_call h.single ?_⟩
    · intro k hk
      refine placed_call hkeeps ?_ hk (h.placed k hk)
      intro l hl _
      rcases hl with hl | ⟨q, u, hq, hqu, hrunning, hsink⟩
      · exact .inl hl
      · -- the thread that was joined has returned
        have hne : q ≠ p := by
          rintro rfl
          rw [hp] at hqu
          cases hqu
          rw [hexited] at hrunning
          cases hrunning
        exact .inr ⟨q, u, (List.mem_erase_of_ne hne).mpr hq, hqu, hrunning, hsink⟩
    · refine ⟨hsingle.again, ?_, ?_⟩
      · rcases hsingle.single with ⟨hloose, hlength⟩ | hnone
        · exact .inl ⟨hloose, (List.length_erase_le ..).trans hlength⟩
        · refine .inr ?_
          simp [Custody.afterCall, hnone]
      · intro hfree
        obtain ⟨hloose, hnone⟩ := hsingle.held hfree
        refine ⟨hloose, ?_⟩
        simp [Custody.afterCall, hnone]

theorem SinksHeld.call (h : SinksHeld γ w) {i : ι} {o : Op} {r : o.Res}
    (hpermits : (γ i).permits o) (hcall : w.call decoders i o r = some w')
    (hfirst : ∀ rate channels peer,
      o = .act (.send (.sessionStarted rate channels peer)) → (γ i).isOpen = false) :
    SinksHeld (Function.update γ i ((γ i).afterCall ⟨o, r⟩)) w' := by
  cases o with
  | ask query =>
    cases query with
    | makeSink rate channels => exact h.call_makeSink hpermits hcall
    | spawnPlayer config sink => exact h.call_spawnPlayer hpermits hcall
    | _ => exact h.call_steady hpermits hcall hfirst (by simp) (by simp) (by simp)
  | act effect =>
    cases effect with
    | join p => exact h.call_join hpermits hcall
    | _ => exact h.call_steady hpermits hcall hfirst (by simp) (by simp) (by simp)

theorem SinksHeld.move (h : SinksHeld γ w) {deed : Deed}
    (hmove : Moved decoders decryptBlock w deed w') : SinksHeld γ w' := by
  have hnumbered := h.numbered.moved hmove
  cases hmove with
  | stepped hp _ hstep => exact h.step hp hstep.sink_eq
  | turned _ _ => exact h.keeps rfl rfl (.refl w) hnumbered
  | @pushed _ t output _ _ _ =>
    cases output with
    | player command =>
      exact h.keeps rfl rfl (World.keeps_onPlayer w _ (fun _ => rfl) fun _ => rfl) hnumbered
    | _ => exact h.keeps rfl rfl (.refl w) hnumbered
  | disconnected =>
    exact h.keeps rfl rfl (World.keeps_onPlayer w _ (fun _ => rfl) fun _ => rfl) hnumbered

end Connections

/-! ## Every run -/

/-- The sinks alive are at most one in every run in which no session is started while one of
the same connection is open. -/
theorem one_sink_alive {ι : Type} [DecidableEq ι] (decoders : AlacConfig → Option Player.Decoder)
    (decryptBlock : Rtp.Block → Bytes → Bytes) (ctx : ι → Context) (observer : Bool)
    (peerIp : ι → IpAddr) (requests : ι → List Request) (history : History ι Op.Res Deed)
    (c : Pool ι Op Op.Res (List Response) (World ι))
    (h : Happens decoders decryptBlock (fun _ _ _ => True)
      (receivers ctx observer peerIp requests) history c)
    (honce : ∀ pre, pre <+: history → ∀ i, (charge i pre).again = false) :
    c.shared.sinks.length ≤ 1 := by
  have hheld : (∀ pre, pre <+: history → ∀ i, (charge i pre).again = false) →
      SinksHeld (fun i => charge i history) c.shared := by
    refine h.invariant (receivers_obey ctx observer peerIp requests)
      (fun history w => (∀ pre, pre <+: history → ∀ i, (charge i pre).again = false) →
        SinksHeld (fun i => charge i history) w) ?_ ?_ ?_
    · intro _
      exact .start
    · intro history w i o r w' ih hpermits hworld honce
      have hbefore := ih fun pre hpre => honce pre (hpre.trans (List.prefix_append _ _))
      have hcharge : (fun j => charge j (history ++ [.inl (i, ⟨o, r⟩)])) =
          Function.update (fun j => charge j history) i ((charge i history).afterCall ⟨o, r⟩) := by
        funext j
        exact charge_call history i ⟨o, r⟩ j
      rw [hcharge]
      refine hbefore.call hpermits hworld.2 ?_
      rintro rate channels peer rfl
      have hnow := honce _ List.prefix_rfl i
      rw [charge_call_self] at hnow
      exact hnow
    · intro history w deed w' ih hmove honce
      have hbefore := ih fun pre hpre => honce pre (hpre.trans (List.prefix_append _ _))
      obtain ⟨m, hmove⟩ := hmove
      simp only [charge_move]
      exact hbefore.move (World.moved hmove)
  exact (hheld honce).length_le_one

/-- A session from SETUP to TEARDOWN with its playback thread's return, and the next SETUP. -/
def tornDown : Pool Unit Op Op.Res (List Response) (World Unit) × History Unit Op.Res Deed :=
  lone [announceRequest, setupRequest, teardownRequest, setupRequest] (fun _ _ _ => True)
    (List.replicate 13 (.inl ()) ++ List.replicate 3 (.inr (.player 1)) ++
      List.replicate 10 (.inl ()))

theorem one_sink_alive_torn_down : tornDown.1.shared.sinks.length ≤ 1 :=
  one_sink_alive anyDecoder (fun _ body => body) (fun _ => openContext) false
    (fun _ => client.peerIp)
    (fun _ => [announceRequest, setupRequest, teardownRequest, setupRequest])
    tornDown.2 _ (lone_happens _ _ _) (by
      have hinits : ∀ pre ∈ tornDown.2.inits, ∀ i, (charge i pre).again = false := by
        decide +kernel
      intro pre hpre
      exact hinits pre ((List.mem_inits _ _).mpr hpre))

def setUpTwice : Pool Unit Op Op.Res (List Response) (World Unit) × History Unit Op.Res Deed :=
  lone [announceRequest, setupRequest, setupRequest] (fun _ _ _ => True)
    (List.replicate 11 (.inl ()))

/-- A second SETUP makes its sink before the thread of the first is joined. -/
theorem two_sinks_alive :
    Happens anyDecoder (fun _ body => body) (fun _ _ _ => True)
        (receivers (fun _ => openContext) false (fun _ => client.peerIp) fun _ =>
          [announceRequest, setupRequest, setupRequest])
        setUpTwice.2 setUpTwice.1 ∧
      setUpTwice.1.shared.sinks.length = 2 :=
  ⟨lone_happens _ _ _, by decide +kernel⟩

end OpenAirplay
