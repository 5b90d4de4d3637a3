import OpenAirplay.Flushes

/-!
# When a flush takes effect

No flush is lost on its way but by a thread that throws its commands away or has ended, and then
it is in the thread's queue for good. So what is not done yet is in one of the queues: also when
the event is sent that reports it.
-/

namespace OpenAirplay

open Program Player

set_option autoImplicit false

/-! ## Where the flushes are -/

section Accounts

variable {ι : Type} {history : History ι Op.Res Deed} {w w' : World ι}
  {decoders : AlacConfig → Option Decoder} {decryptBlock : Rtp.Block → Bytes → Bytes}

/-- Every flush that was sent is waiting, on its way, done or thrown away. -/
structure Accounted (history : History ι Op.Res Deed) (w : World ι) : Prop where
  sent : ∀ a, flushesSent history a = jitterResets history a + w.waiting a
  reset : ∀ a, jitterResets history a = flushesPushed history a + w.leaving a
  pushed : ∀ a p, w.feeds a = some p → flushesPushed history a =
    w.held p + prebufferResets history p + flushesDiscarded history p
  unfed : ∀ p, (∀ a, w.feeds a ≠ some p) →
    w.held p + prebufferResets history p + flushesDiscarded history p = 0
  done : ∀ p, prebufferResets history p = sinkFlushes history p + w.due p
  unsent : ∀ a, w.feeds a = none → flushesSent history a = 0

theorem Accounted.start : Accounted ([] : History ι Op.Res Deed) World.new where
  sent _ := rfl
  reset _ := rfl
  pushed _ _ h := by cases h
  unfed _ _ := rfl
  done _ := rfl
  unsent _ _ := rfl

theorem Accounted.step (h : Accounted history w) {p : Nat} {t t' : Thread ι} {deed : Deed}
    (hp : w.players p = some t) (hstep : Stepped decoders (w.track t.owner) p t deed t') :
    Accounted (history ++ [.inr deed]) (w.afterStep p t') := by
  obtain ⟨hinflow, hdue⟩ := hstep.flow history
  obtain ⟨htasks, helse⟩ := hstep.elsewhere history
  have hkept : ∀ q, (w.afterStep p t').held q + prebufferResets (history ++ [.inr deed]) q +
      flushesDiscarded (history ++ [.inr deed]) q =
        w.held q + prebufferResets history q + flushesDiscarded history q := by
    intro q
    by_cases hq : q = p
    · subst hq
      rw [World.held_afterStep_self, World.held_eq hp]
      exact hinflow
    · obtain ⟨hresets, hdiscarded, _⟩ := helse q hq
      rw [World.held_afterStep_of_ne hq, hresets, hdiscarded]
  refine ⟨?_, ?_, ?_, ?_, ?_, ?_⟩
  · intro a
    rw [flushesSent_deed, (htasks a).1]
    exact h.sent a
  · intro a
    rw [(htasks a).1, (htasks a).2]
    exact h.reset a
  · intro a q ha
    rw [(htasks a).2, hkept q]
    exact h.pushed a q ha
  · intro q hq
    rw [hkept q]
    exact h.unfed q hq
  · intro q
    have hdone := h.done q
    by_cases hq : q = p
    · subst hq
      rw [World.due_eq hp] at hdone
      rw [World.due_afterStep_self]
      omega
    · obtain ⟨hresets, _, hflushes⟩ := helse q hq
      rw [World.due_afterStep_of_ne hq, hresets, hflushes]
      exact hdone
  · intro a ha
    rw [flushesSent_deed]
    exact h.unsent a ha

theorem Accounted.turn (h : Accounted history w) {a : Nat} {t t' : AudioTask}
    {input : Audio.Input} (ha : w.tasks a = some t) (hplayer : t.cfg.player = true)
    (hturn : t.turn decryptBlock input = some t') :
    Accounted (history ++ [.inr (.turned a input)])
      { w with tasks := Function.update w.tasks a (some t') } := by
  obtain ⟨hempty, hleaving, hrequests⟩ := AudioTask.turn_flow hturn hplayer
  have hfeeds := World.feeds_setTask ha (AudioTask.turn_same hturn).1
  have hheld : World.held { w with tasks := Function.update w.tasks a (some t') } = w.held := rfl
  have hdue : World.due { w with tasks := Function.update w.tasks a (some t') } = w.due := rfl
  have hresets : ∀ b, jitterResets (history ++ [.inr (.turned a input)]) b =
      jitterResets history b + if b = a then (if input.isFlush then 1 else 0) else 0 := by
    intro b
    by_cases hb : b = a
    · simp [isReset, hb]
    · simp [isReset, hb, Ne.symm hb]
  refine ⟨?_, ?_, ?_, ?_, ?_, ?_⟩
  · intro b
    have hsent := h.sent b
    rw [flushesSent_deed, hresets, World.waiting_setTask]
    by_cases hb : b = a
    · subst hb
      rw [World.waiting_eq ha] at hsent
      simp only [if_true]
      omega
    · simpa [hb] using hsent
  · intro b
    have hreset := h.reset b
    rw [flushesPushed_deed, hresets, World.leaving_setTask]
    by_cases hb : b = a
    · subst hb
      rw [World.leaving_eq ha, hempty] at hreset
      simp [hleaving, hreset]
    · simpa [hb] using hreset
  · intro b p hb
    simpa [hheld] using h.pushed b p (hfeeds ▸ hb)
  · intro p hp
    simpa [hheld] using h.unfed p (hfeeds ▸ hp)
  · intro p
    simpa [hdue] using h.done p
  · intro b hb
    simpa using h.unsent b (hfeeds ▸ hb)

/-- A flush that leaves the task is in the queue of the player it feeds. -/
theorem World.pushed_measures {a : Nat} {t : AudioTask} {u : Thread ι} {output : Audio.Output}
    {rest : List Audio.Output} (ha : w.tasks a = some t) (houtbox : t.outbox = output :: rest)
    (hu : w.players t.player = some u)
    (hw' : w' = World.deliver
      { w with tasks := Function.update w.tasks a (some { t with outbox := rest }) }
      t.player output) :
    w'.feeds = w.feeds ∧ w'.waiting = w.waiting ∧ w'.due = w.due ∧
      (∀ b, w.leaving b =
        w'.leaving b + if b = a then (if output = .player .flush then 1 else 0) else 0) ∧
      ∀ q, w'.held q =
        w.held q + if q = t.player then (if output = .player .flush then 1 else 0) else 0 := by
  let w₁ : World ι := { w with tasks := Function.update w.tasks a (some { t with outbox := rest }) }
  have hfeeds : w₁.feeds = w.feeds := feeds_setTask ha rfl
  have hwaiting : w₁.waiting = w.waiting := by
    funext b
    rw [waiting_setTask]
    by_cases hb : b = a
    · rw [if_pos hb, hb, waiting_eq ha]
    · rw [if_neg hb]
  have hleaving : ∀ b, w.leaving b =
      w₁.leaving b + if b = a then (if output = .player .flush then 1 else 0) else 0 := by
    intro b
    rw [leaving_setTask]
    by_cases hb : b = a
    · rw [if_pos hb, if_pos hb, hb, leaving_eq ha]
      simp [AudioTask.leaving, houtbox, List.count_cons]
    · rw [if_neg hb, if_neg hb, Nat.add_zero]
  subst hw'
  cases output with
  | player command =>
    refine ⟨hfeeds, hwaiting, due_onPlayer t.player fun _ => rfl, hleaving, ?_⟩
    intro q
    by_cases hq : q = t.player
    · subst hq
      by_cases hflush : command = .flush
      · subst hflush
        simp [deliver, held, World.onPlayer, hu, Playback.flushes, Playback.send]
        omega
      · simp [deliver, held, World.onPlayer, hu, flushes_send hflush, hflush]
    · simp [deliver, held, World.onPlayer, hq]
  | observe audio => exact ⟨hfeeds, hwaiting, rfl, hleaving, fun q => by simp [deliver, held]⟩
  | control target datagram =>
    exact ⟨hfeeds, hwaiting, rfl, hleaving, fun q => by simp [deliver, held]⟩

theorem Accounted.disconnect (h : Accounted history w) (p : Nat) :
    Accounted (history ++ [.inr (.disconnected p)])
      (w.onPlayer p fun t => { t with playback := { t.playback with connected := false } }) := by
  have hheld : (w.onPlayer p fun t =>
      { t with playback := { t.playback with connected := false } }).held = w.held :=
    World.held_onPlayer p fun _ => rfl
  have hdue : (w.onPlayer p fun t =>
      { t with playback := { t.playback with connected := false } }).due = w.due :=
    World.due_onPlayer p fun _ => rfl
  refine ⟨?_, ?_, ?_, ?_, ?_, ?_⟩
  · intro a
    rw [flushesSent_deed, jitterResets_deed]
    exact h.sent a
  · intro a
    rw [flushesPushed_deed, jitterResets_deed]
    exact h.reset a
  · intro a q ha
    simpa [hheld] using h.pushed a q ha
  · intro q hq
    simpa [hheld] using h.unfed q hq
  · intro q
    simpa [hdue] using h.done q
  · intro a ha
    simpa using h.unsent a ha

end Accounts

theorem Accounted.ofSlot {ι : Type} {history : History ι Op.Res Deed} {w : World ι}
    (h : Accounted history w) (slot : Bool) : Accounted history { w with slot := slot } :=
  ⟨h.sent, h.reset, h.pushed, h.unfed, h.done, h.unsent⟩

theorem isSent_of_ne {ι : Type} (i : ι) {o : Op} (r : o.Res) (a : Nat)
    (hflush : ∀ a flushTo, o ≠ .act (.sendFlush a flushTo)) :
    isSent a (.inl (i, ⟨o, r⟩)) = false := by
  cases o with
  | ask query => rfl
  | act effect =>
    cases effect with
    | sendFlush b flushTo => exact absurd rfl (hflush b flushTo)
    | _ => rfl

/-! ## One step -/

section Connections

variable {ι : Type} [DecidableEq ι] {history : History ι Op.Res Deed} {w w' : World ι}
  {decoders : AlacConfig → Option Decoder} {decryptBlock : Rtp.Block → Bytes → Bytes}

theorem Accounted.call (h : Accounted history w) (hnumbered : w.Numbered) {i : ι} {o : Op}
    {r : o.Res} (hreply : World.Replied decoders i w o r w')
    (hflush : ∀ a flushTo, o ≠ .act (.sendFlush a flushTo))
    (haudio : ∀ params observer player clientControl,
      o ≠ .ask (.spawnAudio params observer player clientControl)) :
    Accounted (history ++ [.inl (i, ⟨o, r⟩)]) w' := by
  have hfeeds := hreply.feeds_eq haudio
  refine ⟨?_, ?_, ?_, ?_, ?_, ?_⟩
  · intro a
    simpa [isSent_of_ne i r a hflush, hreply.waiting_eq hnumbered hflush] using h.sent a
  · intro a
    simpa [hreply.leaving_eq hnumbered] using h.reset a
  · intro a p ha
    simpa [hreply.held_eq hnumbered] using h.pushed a p (hfeeds ▸ ha)
  · intro p hp
    simpa [hreply.held_eq hnumbered] using h.unfed p (hfeeds ▸ hp)
  · intro p
    simpa [hreply.due_eq hnumbered] using h.done p
  · intro a ha
    simpa [isSent_of_ne i r a hflush] using h.unsent a (hfeeds ▸ ha)

theorem Accounted.call_sendFlush (h : Accounted history w) (hnumbered : w.Numbered) {i : ι}
    {a : Nat} {flushTo : Option U16} {r : Unit}
    (hreply : World.Replied decoders i w (.act (.sendFlush a flushTo)) r w') :
    Accounted (history ++ [.inl (i, ⟨.act (.sendFlush a flushTo), r⟩)]) w' := by
  have hfeeds := hreply.feeds_eq (by simp)
  have hleaving := hreply.leaving_eq hnumbered
  have hheld := hreply.held_eq hnumbered
  have hdue := hreply.due_eq hnumbered
  cases hreply with
  | idle hidle => cases hidle
  | numbered heq => simp at heq
  | @sentFlush _ _ t _ ha =>
    refine ⟨?_, ?_, ?_, ?_, ?_, ?_⟩
    · intro b
      have hsent := h.sent b
      by_cases hb : b = a
      · subst hb
        rw [World.waiting_eq ha] at hsent
        simp [isSent, World.waiting, World.onTask, ha, hsent]
        omega
      · simp [isSent, World.waiting, World.onTask, Function.update_of_ne hb, Ne.symm hb]
        exact hsent
    · intro b
      simpa [hleaving] using h.reset b
    · intro b p hb
      simpa [hheld] using h.pushed b p (hfeeds ▸ hb)
    · intro p hp
      simpa [hheld] using h.unfed p (hfeeds ▸ hp)
    · intro p
      simpa [hdue] using h.done p
    · intro b hb
      have hne : a ≠ b := by
        rintro rfl
        rw [hfeeds, World.feeds_eq ha] at hb
        cases hb
      simpa [isSent, hne] using h.unsent b (hfeeds ▸ hb)

theorem Accounted.call_spawnAudio (h : Accounted history w) (hnumbered : w.Numbered) {i : ι}
    {params : Audio.StreamParams} {observer : Bool} {player : Nat} {clientControl : SocketAddr}
    {r : Nat} (hfree : ∀ a, w.feeds a ≠ some player)
    (hreply : World.Replied decoders i w
      (.ask (.spawnAudio params observer player clientControl)) r w') :
    Accounted (history ++
      [.inl (i, ⟨.ask (.spawnAudio params observer player clientControl), r⟩)]) w' := by
  have hwaiting := hreply.waiting_eq hnumbered (by simp)
  have hleaving := hreply.leaving_eq hnumbered
  have hheld := hreply.held_eq hnumbered
  have hdue := hreply.due_eq hnumbered
  cases hreply with
  | idle hidle => cases hidle
  | numbered heq => simp at heq
  | fed =>
    have hunfed : w.feeds w.fresh = none := by simp [World.feeds, hnumbered.fresh_task]
    let w₁ : World ι := { w with
      fresh := w.fresh + 1
      tasks := Function.update w.tasks w.fresh
        (some (.spawn params observer player clientControl)) }
    have hfeeds : ∀ a, a ≠ w.fresh → w₁.feeds a = w.feeds a := by
      intro a ha
      simp [w₁, World.feeds, Function.update_of_ne ha]
    have hfresh : w₁.feeds w.fresh = some player := by
      simp [w₁, World.feeds, AudioTask.spawn]
    refine ⟨?_, ?_, ?_, ?_, ?_, ?_⟩
    · intro a
      simpa [isSent, hwaiting] using h.sent a
    · intro a
      simpa [hleaving] using h.reset a
    · intro a p ha
      by_cases hnew : a = w.fresh
      · -- nothing was sent to a task that was not there, nor to its player
        subst hnew
        rw [hfresh] at ha
        cases ha
        have hnone := h.unsent _ hunfed
        have hsent := h.sent w.fresh
        have hreset := h.reset w.fresh
        have hplayer := h.unfed player hfree
        simp only [flushesPushed_call, prebufferResets_call, flushesDiscarded_call, hheld]
        omega
      · rw [hfeeds a hnew] at ha
        simpa [hheld] using h.pushed a p ha
    · intro p hp
      have hbefore : ∀ a, w.feeds a ≠ some p := by
        intro a ha
        have hne : a ≠ w.fresh := by
          rintro rfl
          rw [hunfed] at ha
          cases ha
        exact hp a ((hfeeds a hne).trans ha)
      simpa [hheld] using h.unfed p hbefore
    · intro p
      simpa [hdue] using h.done p
    · intro a ha
      have hne : a ≠ w.fresh := by
        rintro rfl
        rw [hfresh] at ha
        cases ha
      simpa [isSent] using h.unsent a ((hfeeds a hne).symm.trans ha)

theorem Accounted.push (h : Accounted history w) (hwired : Wired history w) {a : Nat}
    {t : AudioTask} {output : Audio.Output} {rest : List Audio.Output} (ha : w.tasks a = some t)
    (houtbox : t.outbox = output :: rest)
    (hw' : w' = World.deliver
      { w with tasks := Function.update w.tasks a (some { t with outbox := rest }) }
      t.player output) : Accounted (history ++ [.inr (.pushed a output)]) w' := by
  have hfed := World.feeds_eq ha
  obtain ⟨j, howner⟩ := hwired.manned a t.player hfed
  obtain ⟨u, hu, _⟩ := Option.map_eq_some_iff.mp howner
  obtain ⟨hfeeds, hwaiting, hdue, hleaving, hheld⟩ := World.pushed_measures ha houtbox hu hw'
  have hpushed : ∀ b, flushesPushed (history ++ [.inr (.pushed a output)]) b =
      flushesPushed history b +
        if b = a then (if output = .player .flush then 1 else 0) else 0 := by
    intro b
    by_cases hb : b = a
    · simp [hb]
    · simp [hb, Ne.symm hb]
  refine ⟨?_, ?_, ?_, ?_, ?_, ?_⟩
  · intro b
    rw [hwaiting]
    simpa [isReset] using h.sent b
  · intro b
    have hreset := h.reset b
    have hb := hleaving b
    rw [hpushed]
    simp only [jitterResets_deed, isReset, Bool.false_eq_true, if_false]
    omega
  · intro b p hb
    rw [hfeeds] at hb
    have hbefore := h.pushed b p hb
    have hsame : b = a ↔ p = t.player := by
      constructor
      · rintro rfl
        exact Option.some.inj (hb.symm.trans hfed)
      · rintro rfl
        exact hwired.single b a t.player hb hfed
    rw [hpushed, hheld]
    simp only [hsame, prebufferResets_deed, flushesDiscarded_deed]
    simp
    omega
  · intro p hp
    rw [hfeeds] at hp
    have hne : p ≠ t.player := by
      rintro rfl
      exact hp a hfed
    rw [hheld, if_neg hne]
    simpa using h.unfed p hp
  · intro p
    rw [hdue]
    simpa using h.done p
  · intro b hb
    rw [hfeeds] at hb
    simpa using h.unsent b hb

theorem Accounted.move (h : Accounted history w) (hwired : Wired history w) {deed : Deed}
    (hmove : Moved decoders decryptBlock w deed w') : Accounted (history ++ [.inr deed]) w' := by
  cases hmove with
  | stepped hp _ hstep => exact h.step hp hstep
  | turned ha hturn => exact h.turn ha (hwired.output _ _ ha) hturn
  | pushed ha houtbox => exact h.push hwired ha houtbox rfl
  | disconnected => exact h.disconnect _

end Connections

/-! ## Every run -/

/-- Flush number `n` of the task's channel has reset the jitter buffer and the prebuffer, and
the sink was flushed for it. -/
def TakenEffect {ι : Type} (history : History ι Op.Res Deed) (a p n : Nat) : Prop :=
  n < jitterResets history a ∧ n < prebufferResets history p ∧ n < sinkFlushes history p

instance {ι : Type} (history : History ι Op.Res Deed) (a p n : Nat) :
    Decidable (TakenEffect history a p n) :=
  inferInstanceAs (Decidable (_ ∧ _ ∧ _))

/-- No flush is in a queue between the connection and the sink, nor lost in that of a thread
which has returned or panicked. -/
structure Settled {ι : Type} (t : AudioTask) (u : Thread ι) : Prop where
  requests : t.requests = []
  outbox : .player .flush ∉ t.outbox
  queue : .flush ∉ u.playback.queue
  received : u.playback.phase ≠ .received .flush
  working : ∀ actions, u.playback.phase = .working actions → .flush ∉ actions

theorem flushes_eq_zero {s : Playback Command Player.Sample} :
    s.flushes = 0 ↔ .flush ∉ s.queue ∧ s.phase ≠ .received .flush := by
  unfold Playback.flushes
  cases s.phase with
  | received command => simp [List.count_eq_zero, List.count_singleton]
  | _ => simp [List.count_eq_zero]

theorem due_eq_zero {s : Playback Command Player.Sample} :
    s.due = 0 ↔ ∀ actions, s.phase = .working actions → .flush ∉ actions := by
  unfold Playback.due
  cases s.phase with
  | working actions => simp [List.count_eq_zero]
  | _ => simp

theorem settled_iff {ι : Type} {t : AudioTask} {u : Thread ι} :
    Settled t u ↔ t.requests.length = 0 ∧ t.leaving = 0 ∧ u.playback.flushes = 0 ∧
      u.playback.due = 0 := by
  rw [flushes_eq_zero, due_eq_zero, List.length_eq_zero_iff, AudioTask.leaving,
    List.count_eq_zero]
  constructor
  · intro h
    exact ⟨h.requests, h.outbox, ⟨h.queue, h.received⟩, h.working⟩
  · intro hzero
    obtain ⟨hrequests, houtbox, ⟨hqueue, hreceived⟩, hworking⟩ := hzero
    exact ⟨hrequests, houtbox, hqueue, hreceived, hworking⟩

theorem flushesDiscarded_eq_zero {ι : Type} {history : History ι Op.Res Deed} {p : Nat} :
    flushesDiscarded history p = 0 ↔ .inr (.discarded p .flush) ∉ history := by
  unfold flushesDiscarded
  rw [List.countP_eq_zero]
  constructor
  · intro h hmem
    exact h _ hmem (by simp [isDeed])
  · intro h x hx hdeed
    cases x with
    | inl step => cases hdeed
    | inr d =>
      obtain rfl : d = .discarded p .flush := by simpa [isDeed] using hdeed
      exact h hx

theorem exists_of_isSent {ι : Type} {a : Nat} {x : (ι × Call Op.Res) ⊕ Deed}
    (h : isSent a x = true) : ∃ i flushTo, x = .inl (i, did (.sendFlush a flushTo)) := by
  cases x with
  | inr d => cases h
  | inl step =>
    obtain ⟨i, o, r⟩ := step
    cases o with
    | ask query => cases h
    | act effect =>
      cases effect with
      | sendFlush b flushTo =>
        obtain rfl : b = a := by simpa [isSent] using h
        exact ⟨i, flushTo, rfl⟩
      | _ => cases h

section Runs

variable {ι : Type} [DecidableEq ι] {decoders : AlacConfig → Option Decoder}
  {decryptBlock : Rtp.Block → Bytes → Bytes}

theorem accounted (ctx : ι → Context) (observer : Bool) (peerIp : ι → IpAddr)
    (requests : ι → List Request) {history : History ι Op.Res Deed}
    {c : Pool ι Op Op.Res (List Response) (World ι)}
    (h : Happens decoders decryptBlock (fun _ _ _ => True)
      (receivers ctx observer peerIp requests) history c) :
    Wired history c.shared ∧ Accounted history c.shared := by
  refine h.invariant (receivers_obey ctx observer peerIp requests)
    (fun history w => Wired history w ∧ Accounted history w) ⟨.start, .start⟩ ?_ ?_
  · intro history w i o r w' ⟨hwired, haccounted⟩ hpermits ⟨_, hcall⟩
    obtain ⟨slot, w₁, _, hreply, rfl⟩ := World.call_eq_some hcall
    have hstep : Wired (history ++ [.inl (i, ⟨o, r⟩)]) w₁ ∧
        Accounted (history ++ [.inl (i, ⟨o, r⟩)]) w₁ := by
      by_cases hplayer : ∃ config sink, o = .ask (.spawnPlayer config sink)
      · obtain ⟨config, sink, rfl⟩ := hplayer
        exact ⟨hwired.call_spawnPlayer hreply,
          haccounted.call hwired.numbered hreply (by simp) (by simp)⟩
      have hplayer' : ∀ config sink, o ≠ .ask (.spawnPlayer config sink) :=
        fun config sink heq => hplayer ⟨config, sink, heq⟩
      by_cases haudio : ∃ params observer player clientControl,
          o = .ask (.spawnAudio params observer player clientControl)
      · obtain ⟨params, observer, player, clientControl, rfl⟩ := haudio
        have hfree := (hwired.unfed i player hpermits).2
        exact ⟨hwired.call_spawnAudio hpermits hreply,
          haccounted.call_spawnAudio hwired.numbered hfree hreply⟩
      have haudio' : ∀ params observer player clientControl,
          o ≠ .ask (.spawnAudio params observer player clientControl) :=
        fun params observer player clientControl heq =>
          haudio ⟨params, observer, player, clientControl, heq⟩
      refine ⟨hwired.call hpermits hreply hplayer' haudio', ?_⟩
      by_cases hflush : ∃ a flushTo, o = .act (.sendFlush a flushTo)
      · obtain ⟨a, flushTo, rfl⟩ := hflush
        exact haccounted.call_sendFlush hwired.numbered hreply
      · exact haccounted.call hwired.numbered hreply
          (fun a flushTo heq => hflush ⟨a, flushTo, heq⟩) haudio'
    exact ⟨hstep.1.ofSlot slot, hstep.2.ofSlot slot⟩
  · intro history w deed w' ⟨hwired, haccounted⟩ ⟨m, hmove⟩
    exact ⟨hwired.move (World.moved hmove), haccounted.move hwired (World.moved hmove)⟩

/-- All the flushes in a channel are the ones of its own connection. -/
theorem flushesSent_mid {pre mid history : History ι Op.Res Deed} {w : World ι} {i : ι} {a : Nat}
    {flushTo : Option U16} (h : Wired history w)
    (hhistory : history = pre ++ .inl (i, did (.sendFlush a flushTo)) :: mid ++
      [.inl (i, did (.send .flushed))])
    (hmid : ∀ call, .inl (i, call) ∉ mid) : flushesSent history a = flushesSent pre a + 1 := by
  have hown : w.Serves a i := h.senders i a flushTo (by simp [hhistory])
  have hnone : flushesSent mid a = 0 := by
    apply List.countP_eq_zero.mpr
    intro x hx hsent
    obtain ⟨j, flushTo', rfl⟩ := exists_of_isSent hsent
    obtain rfl := hown.unique (h.senders j a flushTo' (by simp [hhistory, hx]))
    exact hmid _ hx
  unfold flushesSent at hnone ⊢
  rw [hhistory]
  simp [isSent, did, hnone]

end Runs

/-- When `Flushed` is sent for a FLUSH that was handed to the stream's audio task, the flush has
taken effect exactly if none is left in a queue and the playback thread has thrown none away. -/
theorem flushed_after_effect_iff {ι : Type} [DecidableEq ι]
    (decoders : AlacConfig → Option Decoder) (decryptBlock : Rtp.Block → Bytes → Bytes)
    (ctx : ι → Context) (observer : Bool) (peerIp : ι → IpAddr) (requests : ι → List Request)
    (pre mid history : History ι Op.Res Deed) (c : Pool ι Op Op.Res (List Response) (World ι))
    (i : ι) (a : Nat) (flushTo : Option U16)
    (h : Happens decoders decryptBlock (fun _ _ _ => True)
      (receivers ctx observer peerIp requests) history c)
    (hhistory : history = pre ++ .inl (i, did (.sendFlush a flushTo)) :: mid ++
      [.inl (i, did (.send .flushed))])
    (hmid : ∀ call, .inl (i, call) ∉ mid) :
    ∃ t u, c.shared.tasks a = some t ∧ c.shared.players t.player = some u ∧
      (TakenEffect history a t.player (flushesSent pre a) ↔
        Settled t u ∧ .inr (.discarded t.player .flush) ∉ history) := by
  obtain ⟨hwired, haccounted⟩ := accounted ctx observer peerIp requests h
  have hown : c.shared.Serves a i := hwired.senders i a flushTo (by simp [hhistory])
  obtain ⟨p, hfeeds, howner⟩ := hown
  obtain ⟨t, ht, rfl⟩ := Option.map_eq_some_iff.mp hfeeds
  obtain ⟨u, hu, _⟩ := Option.map_eq_some_iff.mp howner
  refine ⟨t, u, ht, hu, ?_⟩
  have hcount := flushesSent_mid hwired hhistory hmid
  have hsent := haccounted.sent a
  have hreset := haccounted.reset a
  have hpushed := haccounted.pushed a t.player hfeeds
  have hdone := haccounted.done t.player
  rw [World.waiting_eq ht] at hsent
  rw [World.leaving_eq ht] at hreset
  rw [World.held_eq hu] at hpushed
  rw [World.due_eq hu] at hdone
  rw [settled_iff, ← flushesDiscarded_eq_zero]
  unfold TakenEffect
  -- what was sent is what was done and what is left
  omega

def flushRequest : Request := ⟨"FLUSH", "rtsp://192.168.1.10/1", [], []⟩

/-- The audio task and the playback thread get their turn before the event is sent. -/
def flushedSlowly : Pool Unit Op Op.Res (List Response) (World Unit) × History Unit Op.Res Deed :=
  lone [announceRequest, setupRequest, flushRequest] (fun _ _ _ => True)
    (List.replicate 9 (.inl ()) ++
      [.inr (.audio 2 (.flush (some none))), .inr (.push 2), .inr (.player 1), .inr (.player 1),
        .inr (.player 1), .inl ()])

theorem flushed_after_effect_slowly :
    ∃ t u, flushedSlowly.1.shared.tasks 2 = some t ∧
      flushedSlowly.1.shared.players t.player = some u ∧
        (TakenEffect flushedSlowly.2 2 t.player (flushesSent (flushedSlowly.2.take 8) 2) ↔
          Settled t u ∧ .inr (.discarded t.player .flush) ∉ flushedSlowly.2) :=
  flushed_after_effect_iff anyDecoder (fun _ body => body) (fun _ => openContext) false
    (fun _ => client.peerIp) (fun _ => [announceRequest, setupRequest, flushRequest])
    (flushedSlowly.2.take 8)
    [.inr (.turned 2 (.flush (some none))), .inr (.pushed 2 (.player .flush)),
      .inr (.received 1 .flush), .inr (.handled 1 .flush), .inr (.acted 1 .flush)]
    flushedSlowly.2 _ () 2 none (lone_happens _ _ _) (by decide +kernel) (by simp)

/-- The event is sent at once. -/
def flushedAtOnce : Pool Unit Op Op.Res (List Response) (World Unit) × History Unit Op.Res Deed :=
  lone [announceRequest, setupRequest, flushRequest] (fun _ _ _ => True)
    (List.replicate 10 (.inl ()))

/-- Nothing has taken effect by then. -/
theorem flushed_before_effect :
    Happens anyDecoder (fun _ body => body) (fun _ _ _ => True)
        (receivers (fun _ => openContext) false (fun _ => client.peerIp) fun _ =>
          [announceRequest, setupRequest, flushRequest])
        flushedAtOnce.2 flushedAtOnce.1 ∧
      flushedAtOnce.2 = flushedAtOnce.2.take 8 ++
        [.inl ((), did (.sendFlush 2 none)), .inl ((), did (.send .flushed))] ∧
      (flushedAtOnce.1.shared.tasks 2).map AudioTask.player = some 1 ∧
      ¬TakenEffect flushedAtOnce.2 2 1 (flushesSent (flushedAtOnce.2.take 8) 2) :=
  ⟨lone_happens _ _ _, by decide +kernel, by decide +kernel, by decide +kernel⟩

/-- A stream announced at a rate of 0: the thread panics when its first frame is to start, and the
flush that the audio task takes and sends on before the event is lost. -/
def flushedInVain : Pool Unit Op Op.Res (List Response) (World Unit) × History Unit Op.Res Deed :=
  lone
    [{ announceRequest with body := Text.utf8 "a=fmtp:96 352 0 16 40 10 14 2 255 0 0 0\n" },
      setupRequest, flushRequest] (fun _ _ _ => True)
    (List.replicate 8 (.inl ()) ++
      [.inr (.audio 2 (.audio (Rtp.audioDatagram 1 0 0 [0]))), .inr (.push 2), .inr (.player 1),
        .inr (.player 1), .inr (.panic 1 ⟨0, [], some 0, some (0, 0)⟩), .inl (),
        .inr (.audio 2 (.flush (some none))), .inr (.push 2), .inl ()])

example : flushedInVain.2[12]?.bind Sum.getRight? = some (.panicked 1) ∧
    flushesPushed flushedInVain.2 2 = 1 ∧ flushedInVain.1.shared.held 1 = 1 ∧
    ¬TakenEffect flushedInVain.2 2 1 (flushesSent (flushedInVain.2.take 13) 2) := by
  decide +kernel

end OpenAirplay
