import OpenAirplay.Custody
import OpenAirplay.Threads

/-!
# Receivers at work

The connections of a receiver among their audio tasks and playback threads, in any
interleaving, and what a step of any of them leaves of the others.
-/

namespace OpenAirplay

open Program

set_option autoImplicit false

/-- In runs of interest every operation may be held to a condition on the world it meets. -/
abbrev Happens {ι : Type} [DecidableEq ι] (decoders : AlacConfig → Option Player.Decoder)
    (decryptBlock : Rtp.Block → Bytes → Bytes) (careful : ι → World ι → Op → Prop)
    (start : Pool ι Op Op.Res (List Response) (World ι)) (history : History ι Op.Res Deed)
    (c : Pool ι Op Op.Res (List Response) (World ι)) : Prop :=
  Execution (fun i w o r w' => careful i w o ∧ w.call decoders i o r = some w')
    (fun w deed w' => ∃ m, w.move decoders decryptBlock m = some (deed, w')) start history c

section Receivers

variable {ι : Type}

/-- The connections of a receiver, before their first request. -/
def receivers (ctx : ι → Context) (observer : Bool) (peerIp : ι → IpAddr)
    (requests : ι → List Request) : Pool ι Op Op.Res (List Response) (World ι) :=
  ⟨fun i => (ctx i).handleConnection (.new observer (peerIp i)) (requests i), .new⟩

theorem receivers_obey (ctx : ι → Context) (observer : Bool) (peerIp : ι → IpAddr)
    (requests : ι → List Request) (i : ι) :
    Obeys Custody.order ((receivers ctx observer peerIp requests).threads i) (fun _ _ => True)
      .empty :=
  (ctx i).obeys_order observer (peerIp i) (requests i)

variable [DecidableEq ι]

/-- What connection `i` is in charge of after all that happened. -/
def charge (i : ι) (history : History ι Op.Res Deed) : Custody :=
  past Custody.order .empty i history

variable (history : History ι Op.Res Deed)

theorem charge_call (i : ι) (call : Call Op.Res) (j : ι) :
    charge j (history ++ [.inl (i, call)]) =
      Function.update (fun j => charge j history) i ((charge i history).afterCall call) j :=
  past_call ..

theorem charge_call_self (i : ι) (call : Call Op.Res) :
    charge i (history ++ [.inl (i, call)]) = (charge i history).afterCall call := by
  rw [charge_call, Function.update_self]

theorem charge_call_of_ne {i j : ι} (h : j ≠ i) (call : Call Op.Res) :
    charge j (history ++ [.inl (i, call)]) = charge j history := by
  rw [charge_call, Function.update_of_ne h]

@[simp] theorem charge_move (i : ι) (deed : Deed) :
    charge i (history ++ [.inr deed]) = charge i history := past_move ..

end Receivers

/-! ## Threads and tasks across a step -/

theorem Stepped.owner_eq {ι : Type} {decoders : AlacConfig → Option Player.Decoder}
    {track : Option Track} {p : Nat} {t t' : Thread ι} {deed : Deed}
    (h : Stepped decoders track p t deed t') : t'.owner = t.owner := by
  cases h <;> rfl

namespace World

variable {ι : Type} {w w' : World ι}

/-- Players, tasks and sinks have numbers below the next one. -/
structure Numbered (w : World ι) : Prop where
  players : ∀ p t, w.players p = some t → p < w.fresh
  tasks : ∀ a t, w.tasks a = some t → a < w.fresh
  sinks : ∀ k ∈ w.sinks, k < w.fresh

theorem numbered_new : (new : World ι).Numbered where
  players _ _ h := by cases h
  tasks _ _ h := by cases h
  sinks _ h := by cases h

theorem Numbered.fresh_player (h : w.Numbered) : w.players w.fresh = none := by
  cases hp : w.players w.fresh with
  | none => rfl
  | some t => exact absurd (h.players _ _ hp) (lt_irrefl _)

theorem Numbered.fresh_task (h : w.Numbered) : w.tasks w.fresh = none := by
  cases ha : w.tasks w.fresh with
  | none => rfl
  | some t => exact absurd (h.tasks _ _ ha) (lt_irrefl _)

theorem onPlayer_eq_some {p q : Nat} {f : Thread ι → Thread ι} {t : Thread ι}
    (h : (w.onPlayer p f).players q = some t) :
    ∃ t₀, w.players q = some t₀ ∧ t = if q = p then f t₀ else t₀ := by
  unfold onPlayer at h
  by_cases hq : q = p
  · subst hq
    simp only [Function.update_self] at h
    obtain ⟨t₀, ht₀, rfl⟩ := Option.map_eq_some_iff.mp h
    exact ⟨t₀, ht₀, by simp⟩
  · simp only [Function.update_of_ne hq] at h
    exact ⟨t, h, by simp [hq]⟩

theorem onPlayer_of_some {p q : Nat} (f : Thread ι → Thread ι) {t : Thread ι}
    (h : w.players q = some t) :
    (w.onPlayer p f).players q = some (if q = p then f t else t) := by
  unfold onPlayer
  by_cases hq : q = p
  · subst hq
    simp [h]
  · simp [hq, h]

theorem onTask_eq_some {a b : Nat} {f : AudioTask → AudioTask} {t : AudioTask}
    (h : (w.onTask a f).tasks b = some t) :
    ∃ t₀, w.tasks b = some t₀ ∧ t = if b = a then f t₀ else t₀ := by
  unfold onTask at h
  by_cases hb : b = a
  · subst hb
    simp only [Function.update_self] at h
    obtain ⟨t₀, ht₀, rfl⟩ := Option.map_eq_some_iff.mp h
    exact ⟨t₀, ht₀, by simp⟩
  · simp only [Function.update_of_ne hb] at h
    exact ⟨t, h, by simp [hb]⟩

theorem Numbered.onPlayer (h : w.Numbered) (p : Nat) (f : Thread ι → Thread ι) :
    (w.onPlayer p f).Numbered where
  players q t hq := by
    obtain ⟨t₀, ht₀, -⟩ := onPlayer_eq_some hq
    exact h.players q t₀ ht₀
  tasks := h.tasks
  sinks := h.sinks

theorem Numbered.onTask (h : w.Numbered) (a : Nat) (f : AudioTask → AudioTask) :
    (w.onTask a f).Numbered where
  players := h.players
  tasks b t hb := by
    obtain ⟨t₀, ht₀, -⟩ := onTask_eq_some hb
    exact h.tasks b t₀ ht₀
  sinks := h.sinks

theorem Numbered.setPlayer (h : w.Numbered) {p : Nat} (hp : p < w.fresh) (t : Thread ι) :
    World.Numbered { w with players := Function.update w.players p (some t) } where
  players q t' hq := by
    by_cases hqp : q = p
    · exact hqp ▸ hp
    · exact h.players q t' (by simpa [Function.update_of_ne hqp] using hq)
  tasks := h.tasks
  sinks := h.sinks

theorem Numbered.setTask (h : w.Numbered) {a : Nat} (ha : a < w.fresh) (t : AudioTask) :
    World.Numbered { w with tasks := Function.update w.tasks a (some t) } where
  players := h.players
  tasks b t' hb := by
    by_cases hba : b = a
    · exact hba ▸ ha
    · exact h.tasks b t' (by simpa [Function.update_of_ne hba] using hb)
  sinks := h.sinks

theorem Numbered.more (h : w.Numbered) : World.Numbered { w with fresh := w.fresh + 1 } where
  players p t hp := (h.players p t hp).trans (Nat.lt_succ_self _)
  tasks a t ha := (h.tasks a t ha).trans (Nat.lt_succ_self _)
  sinks k hk := (h.sinks k hk).trans (Nat.lt_succ_self _)

theorem Numbered.replied [DecidableEq ι] {decoders : AlacConfig → Option Player.Decoder} {i : ι}
    {o : Op} {r : o.Res} (h : w.Numbered) (hreply : Replied decoders i w o r w') :
    w'.Numbered := by
  cases hreply with
  | idle _ => exact h
  | numbered _ => exact h.more
  | madeSink =>
    refine ⟨h.more.players, h.more.tasks, ?_⟩
    intro k hk
    rcases List.mem_cons.mp hk with rfl | hk
    · exact Nat.lt_succ_self _
    · exact h.more.sinks k hk
  | spawned => exact h.more.setPlayer (Nat.lt_succ_self _) _
  | fed => exact h.more.setTask (Nat.lt_succ_self _) _
  | anchored => exact ⟨h.players, h.tasks, h.sinks⟩
  | setStop | sentStop => exact h.onPlayer _ _
  | joined _ _ => exact h
  | aborted | sentFlush _ | closedFlush => exact h.onTask _ _

theorem Numbered.deliver (h : w.Numbered) (p : Nat) (output : Audio.Output) :
    (w.deliver p output).Numbered := by
  cases output with
  | player command => exact h.onPlayer _ _
  | _ => exact h

theorem Numbered.moved [DecidableEq ι] {decoders : AlacConfig → Option Player.Decoder}
    {decryptBlock : Rtp.Block → Bytes → Bytes} {deed : Deed} (h : w.Numbered)
    (hmove : Moved decoders decryptBlock w deed w') : w'.Numbered := by
  cases hmove with
  | @stepped p t t' _ hp _ _ =>
    have hset := h.setPlayer (h.players p t hp) t'
    refine ⟨hset.players, hset.tasks, ?_⟩
    intro k hk
    unfold afterStep at hk
    split at hk
    · exact h.sinks k (List.mem_of_mem_erase hk)
    · exact h.sinks k hk
  | turned ha _ => exact h.setTask (h.tasks _ _ ha) _
  | pushed ha _ => exact (h.setTask (h.tasks _ _ ha) _).deliver _ _
  | disconnected => exact h.onPlayer _ _

end World

/-! ## Receivers to run -/

instance : (o : Op) → DecidableEq o.Res
  | .ask .compareExchange => inferInstanceAs (DecidableEq Bool)
  | .ask .random => inferInstanceAs (DecidableEq (Vector UInt8 8))
  | .ask (.bindThree _) => inferInstanceAs (DecidableEq (Option Ports))
  | .ask (.makeSink _ _) | .ask (.spawnPlayer _ _) | .ask (.spawnAudio _ _ _ _)
  | .ask .spawnControl | .ask (.spawnTiming _) => inferInstanceAs (DecidableEq Nat)
  | .act _ => inferInstanceAs (DecidableEq Unit)

section Schedule

variable {ι : Type} [DecidableEq ι] (decoders : AlacConfig → Option Player.Decoder)
  (decryptBlock : Rtp.Block → Bytes → Bytes) (careful : ι → World ι → Op → Prop)
  [∀ i w o, Decidable (careful i w o)]

/-- Surroundings that oblige, with the slot as it stands and numbers as they come. -/
def World.answer (w : World ι) : (o : Op) → o.Res
  | .ask (.makeSink _ _) | .ask (.spawnPlayer _ _) | .ask (.spawnAudio _ _ _ _)
  | .ask .spawnControl | .ask (.spawnTiming _) => w.fresh
  | o => obligingWith w.slot o

def World.respond (i : ι) (w : World ι) (o : Op) : Option (o.Res × World ι) :=
  if careful i w o then (w.call decoders i o (w.answer o)).map fun w' => (w.answer o, w')
  else none

/-- What becomes of the receivers under a schedule, and what happened. -/
def watch (start : Pool ι Op Op.Res (List Response) (World ι)) (schedule : List (ι ⊕ Move)) :
    Pool ι Op Op.Res (List Response) (World ι) × History ι Op.Res Deed :=
  start.follow (World.respond decoders careful) (World.move decoders decryptBlock) schedule

theorem watch_happens (start : Pool ι Op Op.Res (List Response) (World ι))
    (schedule : List (ι ⊕ Move)) :
    Happens decoders decryptBlock careful start
      (watch decoders decryptBlock careful start schedule).2
      (watch decoders decryptBlock careful start schedule).1 := by
  refine Pool.follow_execution ?_ ?_ start schedule
  · intro i w o r w' h
    unfold World.respond at h
    split at h
    · rename_i hcareful
      obtain ⟨w₁, hcall, heq⟩ := Option.map_eq_some_iff.mp h
      obtain ⟨rfl, rfl⟩ := Prod.mk.inj heq
      exact ⟨hcareful, hcall⟩
    · cases h
  · intro w m deed w' h
    exact ⟨m, h⟩

end Schedule

def anyDecoder (_ : AlacConfig) : Option Player.Decoder := some ⟨2, fun _ => some []⟩

/-- One client on its own, its audio not encrypted. -/
def lone (requests : List Request) (careful : Unit → World Unit → Op → Prop)
    [∀ i w o, Decidable (careful i w o)] (schedule : List (Unit ⊕ Move)) :
    Pool Unit Op Op.Res (List Response) (World Unit) × History Unit Op.Res Deed :=
  watch anyDecoder (fun _ body => body) careful
    (receivers (fun _ => openContext) false (fun _ => client.peerIp) fun _ => requests) schedule

theorem lone_happens (requests : List Request) (careful : Unit → World Unit → Op → Prop)
    [∀ i w o, Decidable (careful i w o)] (schedule : List (Unit ⊕ Move)) :
    Happens anyDecoder (fun _ body => body) careful
      (receivers (fun _ => openContext) false (fun _ => client.peerIp) fun _ => requests)
      (lone requests careful schedule).2 (lone requests careful schedule).1 :=
  watch_happens _ _ _ _ _

end OpenAirplay
