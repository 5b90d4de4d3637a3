import OpenAirplay.Streams

/-!
# Who sends to whom

The connection that spawns an audio task is the only one that sends it flushes, and the task
is the only one that feeds its player.
-/

namespace OpenAirplay

open Program Player

set_option autoImplicit false

namespace World

section Maps

variable {ι β : Type} {w : World ι}

/-- The connection whose thread player `p` is. -/
def owner (w : World ι) (p : Nat) : Option ι := (w.players p).map Thread.owner

/-- The player audio task `a` sends to. -/
def feeds (w : World ι) (a : Nat) : Option Nat := (w.tasks a).map AudioTask.player

theorem map_onPlayer (p : Nat) {f : Thread ι → Thread ι} (m : Thread ι → β)
    (hm : ∀ t, m (f t) = m t) (q : Nat) :
    ((w.onPlayer p f).players q).map m = (w.players q).map m := by
  unfold onPlayer
  by_cases hq : q = p
  · subst hq
    cases w.players q <;> simp [hm]
  · simp [Function.update_of_ne hq]

theorem map_onTask (a : Nat) {f : AudioTask → AudioTask} (m : AudioTask → β)
    (hm : ∀ t, m (f t) = m t) (b : Nat) :
    ((w.onTask a f).tasks b).map m = (w.tasks b).map m := by
  unfold onTask
  by_cases hb : b = a
  · subst hb
    cases w.tasks b <;> simp [hm]
  · simp [Function.update_of_ne hb]

theorem owner_onPlayer (p : Nat) {f : Thread ι → Thread ι} (hf : ∀ t, (f t).owner = t.owner) :
    (w.onPlayer p f).owner = w.owner :=
  funext (map_onPlayer p Thread.owner hf)

theorem feeds_onTask (a : Nat) {f : AudioTask → AudioTask} (hf : ∀ t, (f t).player = t.player) :
    (w.onTask a f).feeds = w.feeds :=
  funext (map_onTask a AudioTask.player hf)

theorem owner_lt (h : w.Numbered) {p : Nat} {i : ι} (hp : w.owner p = some i) :
    p < w.fresh := by
  obtain ⟨t, ht, _⟩ := Option.map_eq_some_iff.mp hp
  exact h.players p t ht

theorem feeds_lt (h : w.Numbered) {a p : Nat} (ha : w.feeds a = some p) : a < w.fresh := by
  obtain ⟨t, ht, _⟩ := Option.map_eq_some_iff.mp ha
  exact h.tasks a t ht

theorem owner_afterStep {p : Nat} {t t' : Thread ι} (hp : w.players p = some t)
    (howner : t'.owner = t.owner) : (w.afterStep p t').owner = w.owner := by
  funext q
  by_cases hq : q = p
  · subst hq
    simp [owner, afterStep, hp, howner]
  · simp [owner, afterStep, Function.update_of_ne hq]

theorem feeds_eq {a : Nat} {t : AudioTask} (ha : w.tasks a = some t) :
    w.feeds a = some t.player := by
  simp [feeds, ha]

theorem feeds_setTask {a : Nat} {t t' : AudioTask} (ha : w.tasks a = some t)
    (hplayer : t'.player = t.player) :
    feeds { w with tasks := Function.update w.tasks a (some t') } = w.feeds := by
  funext b
  by_cases hb : b = a
  · subst hb
    simp [feeds, ha, hplayer]
  · simp [feeds, Function.update_of_ne hb]

end Maps

section Replies

variable {ι : Type} [DecidableEq ι] {w w' : World ι} {decoders : AlacConfig → Option Decoder}
  {i : ι} {o : Op} {r : o.Res}

theorem Replied.owner_eq (h : Replied decoders i w o r w')
    (hspawn : ∀ config sink, o ≠ .ask (.spawnPlayer config sink)) : w'.owner = w.owner := by
  cases h with
  | spawned => exact absurd rfl (hspawn _ _)
  | setStop | sentStop => exact owner_onPlayer _ fun _ => rfl
  | _ => rfl

theorem Replied.feeds_eq (h : Replied decoders i w o r w')
    (hspawn : ∀ params observer player clientControl,
      o ≠ .ask (.spawnAudio params observer player clientControl)) : w'.feeds = w.feeds := by
  cases h with
  | fed => exact absurd rfl (hspawn _ _ _ _)
  | aborted | sentFlush _ | closedFlush => exact feeds_onTask _ fun _ => rfl
  | _ => rfl

end Replies

end World

/-- A turn keeps the task's player and its arguments. -/
theorem AudioTask.turn_same {decryptBlock : Rtp.Block → Bytes → Bytes} {t t' : AudioTask}
    {input : Audio.Input} (h : t.turn decryptBlock input = some t') :
    t'.player = t.player ∧ t'.cfg = t.cfg := by
  unfold turn at h
  split at h
  · cases h
  · obtain ⟨requests, _, rfl⟩ := Option.map_eq_some_iff.mp h
    exact ⟨rfl, rfl⟩

theorem Custody.afterCall_wiring {g : Custody} {o : Op} (r : o.Res)
    (hplayer : ∀ config sink, o ≠ .ask (.spawnPlayer config sink))
    (haudio : ∀ params observer player clientControl,
      o ≠ .ask (.spawnAudio params observer player clientControl)) :
    (g.afterCall ⟨o, r⟩).unfed = g.unfed ∧ (g.afterCall ⟨o, r⟩).channel = g.channel := by
  cases o with
  | ask query =>
    cases query with
    | spawnPlayer config sink => exact absurd rfl (hplayer config sink)
    | spawnAudio params observer player clientControl => exact absurd rfl (haudio _ _ _ _)
    | _ => exact ⟨rfl, rfl⟩
  | act effect =>
    cases effect with
    | send event => cases event <;> exact ⟨rfl, rfl⟩
    | _ => exact ⟨rfl, rfl⟩

section Connections

variable {ι : Type} [DecidableEq ι] {history : History ι Op.Res Deed} {w w' : World ι}
  {decoders : AlacConfig → Option Decoder} {decryptBlock : Rtp.Block → Bytes → Bytes}

/-- Audio task `a` belongs to connection `i`, by the player it feeds. -/
def World.Serves (w : World ι) (a : Nat) (i : ι) : Prop :=
  ∃ p, w.feeds a = some p ∧ w.owner p = some i

/-- Every player is fed by one audio task at most, and every task has its flushes from the one
connection that spawned it. -/
structure Wired (history : History ι Op.Res Deed) (w : World ι) : Prop where
  numbered : w.Numbered
  unfed : ∀ i p, (charge i history).unfed = some p →
    w.owner p = some i ∧ ∀ a, w.feeds a ≠ some p
  channel : ∀ i a, (charge i history).channel = some a → w.Serves a i
  senders : ∀ i a flushTo, .inl (i, did (.sendFlush a flushTo)) ∈ history → w.Serves a i
  single : ∀ a b p, w.feeds a = some p → w.feeds b = some p → a = b
  manned : ∀ a p, w.feeds a = some p → ∃ i, w.owner p = some i
  output : ∀ a t, w.tasks a = some t → t.cfg.player = true

theorem Wired.start : Wired ([] : History ι Op.Res Deed) World.new where
  numbered := World.numbered_new
  unfed _ _ h := by cases h
  channel _ _ h := by cases h
  senders _ _ _ h := by cases h
  single _ _ _ h := by cases h
  manned _ _ h := by cases h
  output _ _ h := by cases h

theorem World.Replied.output {i : ι} {o : Op} {r : o.Res} (h : Replied decoders i w o r w')
    (houtput : ∀ a t, w.tasks a = some t → t.cfg.player = true) :
    ∀ a t, w'.tasks a = some t → t.cfg.player = true := by
  intro b t hb
  cases h with
  | @fed params observer player clientControl =>
    by_cases hnew : b = w.fresh
    · subst hnew
      simp only [Function.update_self] at hb
      cases hb
      rfl
    · exact houtput b t (by simpa [Function.update_of_ne hnew] using hb)
  | aborted | closedFlush | sentFlush _ =>
    obtain ⟨t₀, ht₀, rfl⟩ := onTask_eq_some hb
    have hplayer := houtput b t₀ ht₀
    split <;> exact hplayer
  | _ => exact houtput b t hb

theorem Wired.call (h : Wired history w) {i : ι} {o : Op} {r : o.Res}
    (hpermits : (charge i history).permits o) (hreply : World.Replied decoders i w o r w')
    (hplayer : ∀ config sink, o ≠ .ask (.spawnPlayer config sink))
    (haudio : ∀ params observer player clientControl,
      o ≠ .ask (.spawnAudio params observer player clientControl)) :
    Wired (history ++ [.inl (i, ⟨o, r⟩)]) w' := by
  have howner := hreply.owner_eq hplayer
  have hfeeds := hreply.feeds_eq haudio
  have hserves : ∀ a j, w.Serves a j → w'.Serves a j := by
    intro a j hserves
    unfold World.Serves
    rwa [howner, hfeeds]
  have hcharge : ∀ j, (charge j (history ++ [.inl (i, ⟨o, r⟩)])).unfed = (charge j history).unfed ∧
      (charge j (history ++ [.inl (i, ⟨o, r⟩)])).channel = (charge j history).channel := by
    intro j
    by_cases hj : j = i
    · subst hj
      rw [charge_call_self]
      exact Custody.afterCall_wiring r hplayer haudio
    · rw [charge_call_of_ne _ hj]
      exact ⟨rfl, rfl⟩
  refine ⟨h.numbered.replied hreply, ?_, ?_, ?_, ?_, ?_, hreply.output h.output⟩
  · intro j p hp
    rw [howner, hfeeds]
    exact h.unfed j p ((hcharge j).1 ▸ hp)
  · intro j a ha
    exact hserves a j (h.channel j a ((hcharge j).2 ▸ ha))
  · intro j a flushTo hmem
    rcases List.mem_append.mp hmem with hold | hnew
    · exact hserves a j (h.senders j a flushTo hold)
    · cases List.mem_singleton.mp hnew
      exact hserves a _ (h.channel _ a hpermits)
  · rw [hfeeds]
    exact h.single
  · rw [hfeeds, howner]
    exact h.manned

theorem Wired.call_spawnPlayer (h : Wired history w) {i : ι} {config : AlacConfig} {sink r : Nat}
    (hreply : World.Replied decoders i w (.ask (.spawnPlayer config sink)) r w') :
    Wired (history ++ [.inl (i, ⟨.ask (.spawnPlayer config sink), r⟩)]) w' := by
  have hnumbered := h.numbered.replied hreply
  have hfeeds := hreply.feeds_eq (by simp)
  have houtput := hreply.output h.output
  cases hreply with
  | idle hidle => cases hidle
  | numbered heq => simp at heq
  | spawned =>
    let w₁ : World ι := { w with
      fresh := w.fresh + 1
      players := Function.update w.players w.fresh (some (.spawn decoders i config sink)) }
    have howner : ∀ p j, w.owner p = some j → w₁.owner p = some j := by
      intro p j hp
      have hne : p ≠ w.fresh := Nat.ne_of_lt (World.owner_lt h.numbered hp)
      simpa [w₁, World.owner, Function.update_of_ne hne] using hp
    have hserves : ∀ a j, w.Serves a j → w₁.Serves a j := by
      intro a j ⟨p, ha, hp⟩
      exact ⟨p, ha, howner p j hp⟩
    refine ⟨hnumbered, ?_, ?_, ?_, h.single, ?_, houtput⟩
    · intro j p hp
      by_cases hj : j = i
      · subst hj
        rw [charge_call_self] at hp
        cases hp
        refine ⟨by simp [World.owner, Thread.spawn], ?_⟩
        intro a ha
        obtain ⟨k, hk⟩ := h.manned a w.fresh ha
        exact absurd (World.owner_lt h.numbered hk) (lt_irrefl _)
      · rw [charge_call_of_ne _ hj] at hp
        obtain ⟨hown, hfree⟩ := h.unfed j p hp
        exact ⟨howner p j hown, hfree⟩
    · intro j a ha
      by_cases hj : j = i
      · subst hj
        rw [charge_call_self] at ha
        exact hserves a j (h.channel j a ha)
      · rw [charge_call_of_ne _ hj] at ha
        exact hserves a j (h.channel j a ha)
    · intro j a flushTo hmem
      rcases List.mem_append.mp hmem with hold | hnew
      · exact hserves a j (h.senders j a flushTo hold)
      · cases List.mem_singleton.mp hnew
    · intro a p ha
      obtain ⟨j, hj⟩ := h.manned a p ha
      exact ⟨j, howner p j hj⟩

theorem Wired.call_spawnAudio (h : Wired history w) {i : ι} {params : Audio.StreamParams}
    {observer : Bool} {player : Nat} {clientControl : SocketAddr} {r : Nat}
    (hpermits : (charge i history).permits
      (.ask (.spawnAudio params observer player clientControl)))
    (hreply : World.Replied decoders i w
      (.ask (.spawnAudio params observer player clientControl)) r w') :
    Wired (history ++ [.inl (i, ⟨.ask (.spawnAudio params observer player clientControl), r⟩)])
      w' := by
  have hnumbered := h.numbered.replied hreply
  have houtput := hreply.output h.output
  have hunfed : (charge i history).unfed = some player := hpermits
  obtain ⟨howned, hfree⟩ := h.unfed i player hunfed
  cases hreply with
  | idle hidle => cases hidle
  | numbered heq => simp at heq
  | fed =>
    let w₁ : World ι := { w with
      fresh := w.fresh + 1
      tasks := Function.update w.tasks w.fresh
        (some (.spawn params observer player clientControl)) }
    -- the new task feeds the player that had none
    have hfeeds : ∀ a p, w₁.feeds a = some p →
        (a = w.fresh ∧ p = player) ∨ w.feeds a = some p := by
      intro a p ha
      by_cases hnew : a = w.fresh
      · subst hnew
        simp [w₁, World.feeds, AudioTask.spawn] at ha
        exact .inl ⟨rfl, ha.symm⟩
      · simp only [w₁, World.feeds, Function.update_of_ne hnew] at ha
        exact .inr ha
    have hserves : ∀ a j, w.Serves a j → w₁.Serves a j := by
      intro a j ⟨p, ha, hp⟩
      have hne : a ≠ w.fresh := Nat.ne_of_lt (World.feeds_lt h.numbered ha)
      exact ⟨p, by simpa [w₁, World.feeds, Function.update_of_ne hne] using ha, hp⟩
    refine ⟨hnumbered, ?_, ?_, ?_, ?_, ?_, houtput⟩
    · intro j p hp
      by_cases hj : j = i
      · subst hj
        rw [charge_call_self] at hp
        cases hp
      · rw [charge_call_of_ne _ hj] at hp
        obtain ⟨hown, hnone⟩ := h.unfed j p hp
        refine ⟨hown, ?_⟩
        intro a ha
        rcases hfeeds a p ha with ⟨_, rfl⟩ | hold
        · rw [howned] at hown
          exact hj (Option.some.inj hown).symm
        · exact hnone a hold
    · intro j a ha
      by_cases hj : j = i
      · subst hj
        rw [charge_call_self] at ha
        cases ha
        exact ⟨player, by simp [World.feeds, AudioTask.spawn], howned⟩
      · rw [charge_call_of_ne _ hj] at ha
        exact hserves a j (h.channel j a ha)
    · intro j a flushTo hmem
      rcases List.mem_append.mp hmem with hold | hnew
      · exact hserves a j (h.senders j a flushTo hold)
      · cases List.mem_singleton.mp hnew
    · intro a b p ha hb
      rcases hfeeds a p ha with ⟨rfl, rfl⟩ | hold
      · rcases hfeeds b _ hb with ⟨rfl, _⟩ | hother
        · rfl
        · exact absurd hother (hfree b)
      · rcases hfeeds b p hb with ⟨rfl, rfl⟩ | hother
        · exact absurd hold (hfree a)
        · exact h.single a b p hold hother
    · intro a p ha
      rcases hfeeds a p ha with ⟨_, rfl⟩ | hold
      · exact ⟨i, howned⟩
      · exact h.manned a p hold

theorem Wired.move (h : Wired history w) {deed : Deed}
    (hmove : Moved decoders decryptBlock w deed w') : Wired (history ++ [.inr deed]) w' := by
  have hwiring : w'.owner = w.owner ∧ w'.feeds = w.feeds ∧
      ∀ a t, w'.tasks a = some t → t.cfg.player = true := by
    cases hmove with
    | stepped hp _ hstep => exact ⟨World.owner_afterStep hp hstep.owner_eq, rfl, h.output⟩
    | @turned a t t' input ha hturn =>
      obtain ⟨hplayer, hcfg⟩ := AudioTask.turn_same hturn
      refine ⟨rfl, World.feeds_setTask ha hplayer, ?_⟩
      intro b u hb
      by_cases hba : b = a
      · subst hba
        simp only [Function.update_self] at hb
        cases hb
        rw [hcfg]
        exact h.output b t ha
      · exact h.output b u (by simpa [Function.update_of_ne hba] using hb)
    | @pushed a t output rest ha _ =>
      have houtput : ∀ b u, Function.update w.tasks a (some { t with outbox := rest }) b = some u →
          u.cfg.player = true := by
        intro b u hb
        by_cases hba : b = a
        · subst hba
          simp only [Function.update_self] at hb
          cases hb
          exact h.output b t ha
        · exact h.output b u (by simpa [Function.update_of_ne hba] using hb)
      have hfeeds : World.feeds { w with
          tasks := Function.update w.tasks a (some { t with outbox := rest }) } = w.feeds :=
        World.feeds_setTask ha rfl
      cases output with
      | player command => exact ⟨World.owner_onPlayer _ fun _ => rfl, hfeeds, houtput⟩
      | _ => exact ⟨rfl, hfeeds, houtput⟩
    | disconnected => exact ⟨World.owner_onPlayer _ fun _ => rfl, rfl, h.output⟩
  obtain ⟨howner, hfeeds, houtput⟩ := hwiring
  have hserves : ∀ a j, w.Serves a j → w'.Serves a j := by
    intro a j hserves
    unfold World.Serves
    rwa [howner, hfeeds]
  refine ⟨h.numbered.moved hmove, ?_, ?_, ?_, ?_, ?_, houtput⟩
  · intro i p hp
    rw [howner, hfeeds]
    exact h.unfed i p (by rwa [charge_move] at hp)
  · intro i a ha
    exact hserves a i (h.channel i a (by rwa [charge_move] at ha))
  · intro i a flushTo hmem
    rcases List.mem_append.mp hmem with hold | hnew
    · exact hserves a i (h.senders i a flushTo hold)
    · cases List.mem_singleton.mp hnew
  · rw [hfeeds]
    exact h.single
  · rw [hfeeds, howner]
    exact h.manned

theorem Wired.ofSlot {history : History ι Op.Res Deed} {w : World ι} (h : Wired history w)
    (slot : Bool) : Wired history { w with slot := slot } :=
  ⟨⟨h.numbered.players, h.numbered.tasks, h.numbered.sinks⟩, h.unfed, h.channel, h.senders,
    h.single, h.manned, h.output⟩

end Connections

theorem World.Serves.unique {ι : Type} {w : World ι} {a : Nat} {i j : ι} (hi : w.Serves a i)
    (hj : w.Serves a j) : i = j := by
  obtain ⟨p, hp, hown⟩ := hi
  obtain ⟨q, hq, hother⟩ := hj
  rw [hp] at hq
  cases hq
  rw [hown] at hother
  exact Option.some.inj hother

end OpenAirplay
