import OpenAirplay.Shared.Program

/-!
# Programs among machines

Several programs share a state that also moves on its own: the state's own moves and the
operations of the programs interleave in any order.
-/

universe u v w x y

set_option autoImplicit false

namespace Program

/-- What happens last in an order of things happens at the end, or the whole order before. -/
theorem sublist_snoc {α : Type u} {order history : List α} {a x : α}
    (h : (order ++ [a]).Sublist (history ++ [x])) :
    (order ++ [a]).Sublist history ∨ (a = x ∧ order.Sublist history) := by
  have hreverse := h.reverse
  simp only [List.reverse_append, List.reverse_singleton, List.singleton_append] at hreverse
  rcases List.sublist_cons_iff.mp hreverse with hbefore | ⟨rest, heq, hrest⟩
  · have hback := hbefore.reverse
    exact .inl (by simpa using hback)
  · obtain ⟨rfl, rfl⟩ := List.cons.inj heq
    exact .inr ⟨rfl, by simpa using hrest.reverse⟩

variable {ι : Type x} [DecidableEq ι] {Op : Type u} {Res : Op → Type v} {α : Type v} {W : Type w}
  {E : Type y} {G : Type w}

/-- What happened, in order: an operation of a program, or a move of the shared state. -/
abbrev History (ι : Type x) {Op : Type u} (Res : Op → Type v) (E : Type y) :=
  List ((ι × Call Res) ⊕ E)

inductive Execution (world : ι → W → (o : Op) → Res o → W → Prop) (env : W → E → W → Prop)
    (start : Pool ι Op Res α W) : History ι Res E → Pool ι Op Res α W → Prop where
  | nil : Execution world env start [] start
  | call {history : History ι Res E} {c c' : Pool ι Op Res α W} {step : ι × Call Res} :
    Execution world env start history c → PoolStep world c step c' →
      Execution world env start (history ++ [.inl step]) c'
  | move {history : History ι Res E} {c : Pool ι Op Res α W} {e : E} {shared : W} :
    Execution world env start history c → env c.shared e shared →
      Execution world env start (history ++ [.inr e]) { c with shared := shared }

def calls (history : History ι Res E) : List (ι × Call Res) := history.filterMap Sum.getLeft?

/-- Thread `i`'s own past, as its protocol sees it. -/
def past (P : Protocol Op Res G) (g : G) (i : ι) (history : History ι Res E) : G :=
  view P g i (calls history)

section Past

variable (P : Protocol Op Res G) (g : G) (history : History ι Res E)

theorem past_call (i j : ι) (call : Call Res) :
    past P g j (history ++ [.inl (i, call)]) =
      Function.update (fun j => past P g j history) i (P.after (past P g i history) call) j := by
  have hcalls : calls (history ++ [.inl (i, call)]) = calls history ++ [(i, call)] := by
    simp [calls]
  rw [past, hcalls]
  by_cases hj : j = i
  · subst hj
    rw [view_snoc_self, Function.update_self]
    rfl
  · rw [view_snoc_of_ne P g (Ne.symm hj), Function.update_of_ne hj]
    rfl

theorem past_move (i : ι) (e : E) :
    past P g i (history ++ [.inr e]) = past P g i history := by
  have hcalls : calls (history ++ [.inr e]) = calls history := by
    rw [calls, List.filterMap_append]
    exact List.append_nil _
  rw [past, hcalls, past]

end Past

namespace Execution

variable {world : ι → W → (o : Op) → Res o → W → Prop} {env : W → E → W → Prop}
  {start c c' : Pool ι Op Res α W} {history : History ι Res E} {P : Protocol Op Res G} {g : G}
  {post : α → G → Prop}

theorem obeys (h : Execution world env start history c)
    (hobeys : ∀ i, Obeys P (start.threads i) post g) (i : ι) :
    Obeys P (c.threads i) post (past P g i history) := by
  induction h with
  | nil => exact hobeys i
  | call _ hstep ih =>
    cases hstep with
    | @mk j o next r shared hthread hworld =>
      rw [past_call]
      by_cases hij : i = j
      · subst hij
        rw [hthread] at ih
        simpa only [Function.update_self] using ih.2 r
      · simpa only [Function.update_of_ne hij] using ih
  | move _ _ ih =>
    rw [past_move]
    exact ih

theorem allowed (h : Execution world env start history c)
    (hobeys : ∀ i, Obeys P (start.threads i) post g) {i : ι} {call : Call Res}
    (hstep : PoolStep world c (i, call) c') : P.allowed (past P g i history) call.1 := by
  cases hstep with
  | mk hthread _ =>
    have hthread' := h.obeys hobeys i
    rw [hthread] at hthread'
    exact hthread'.1

theorem allowed_of_prefix (h : Execution world env start history c)
    (hobeys : ∀ i, Obeys P (start.threads i) post g) {pre : History ι Res E} {i : ι}
    {call : Call Res} (hpre : pre ++ [.inl (i, call)] <+: history) :
    P.allowed (past P g i pre) call.1 := by
  induction h with
  | nil =>
    have hlength := hpre.length_le
    simp at hlength
  | call hexec hstep ih =>
    rcases List.prefix_concat_iff.mp hpre with heq | hbefore
    · obtain ⟨rfl, hlast⟩ := List.append_inj' heq rfl
      cases hlast
      exact hexec.allowed hobeys hstep
    · exact ih hbefore
  | move _ _ ih =>
    rcases List.prefix_concat_iff.mp hpre with heq | hbefore
    · obtain ⟨_, hlast⟩ := List.append_inj' heq rfl
      cases hlast
    · exact ih hbefore

/-- What the allowed operations and the moves keep holds after every execution of programs
that obey the protocol. -/
theorem invariant (h : Execution world env start history c)
    (hobeys : ∀ i, Obeys P (start.threads i) post g) (inv : History ι Res E → W → Prop)
    (hstart : inv [] start.shared)
    (hcall : ∀ history shared i o r shared', inv history shared →
      P.allowed (past P g i history) o → world i shared o r shared' →
        inv (history ++ [.inl (i, ⟨o, r⟩)]) shared')
    (hmove : ∀ history shared e shared', inv history shared → env shared e shared' →
      inv (history ++ [.inr e]) shared') :
    inv history c.shared := by
  induction h with
  | nil => exact hstart
  | @call history c c' step hexec hstep ih =>
    obtain ⟨i, did⟩ := step
    have hallowed := hexec.allowed hobeys hstep
    cases hstep with
    | mk hthread hworld => exact hcall history _ i _ _ _ ih hallowed hworld
  | move _ henv ih => exact hmove _ _ _ _ ih henv

theorem append {mid : Pool ι Op Res α W} {history' : History ι Res E}
    (h : Execution world env start history mid) (h' : Execution world env mid history' c) :
    Execution world env start (history ++ history') c := by
  induction h' with
  | nil => simpa using h
  | call _ hstep ih =>
    rw [← List.append_assoc]
    exact ih.call hstep
  | move _ hmove ih =>
    rw [← List.append_assoc]
    exact ih.move hmove

end Execution

/-! ## Schedules -/

section Schedule

variable {M : Type y} (respond : ι → W → (o : Op) → Option (Res o × W))
  (move : W → M → Option (E × W))

/-- One scheduled turn of a program or of a machine; nothing if it is blocked. -/
def Pool.next (c : Pool ι Op Res α W) : ι ⊕ M → Pool ι Op Res α W × History ι Res E
  | .inl i =>
    match c.threads i with
    | .done _ => (c, [])
    | .op o next =>
      match respond i c.shared o with
      | none => (c, [])
      | some (r, shared) => (⟨Function.update c.threads i (next r), shared⟩, [.inl (i, ⟨o, r⟩)])
  | .inr m =>
    match move c.shared m with
    | none => (c, [])
    | some (e, shared) => ({ c with shared := shared }, [.inr e])

def Pool.follow : Pool ι Op Res α W → List (ι ⊕ M) → Pool ι Op Res α W × History ι Res E
  | c, [] => (c, [])
  | c, turn :: schedule =>
    let (c', did) := c.next respond move turn
    let (c'', rest) := c'.follow schedule
    (c'', did ++ rest)

variable {world : ι → W → (o : Op) → Res o → W → Prop} {env : W → E → W → Prop}
  {respond move}

theorem Pool.follow_execution
    (hrespond : ∀ i w o r w', respond i w o = some (r, w') → world i w o r w')
    (hmove : ∀ w m e w', move w m = some (e, w') → env w e w')
    (c : Pool ι Op Res α W) (schedule : List (ι ⊕ M)) :
    Execution world env c (c.follow respond move schedule).2
      (c.follow respond move schedule).1 := by
  induction schedule generalizing c with
  | nil => exact .nil
  | cons turn schedule ih =>
    have hturn : Execution world env c (c.next respond move turn).2
        (c.next respond move turn).1 := by
      cases turn with
      | inl i =>
        cases hthread : c.threads i with
        | done _ =>
          simp only [Pool.next, hthread]
          exact .nil
        | op o next =>
          cases hr : respond i c.shared o with
          | none =>
            simp only [Pool.next, hthread, hr]
            exact .nil
          | some answer =>
            simp only [Pool.next, hthread, hr]
            exact Execution.call .nil (.mk hthread (hrespond _ _ _ _ _ hr))
      | inr m =>
        cases hm : move c.shared m with
        | none =>
          simp only [Pool.next, hm]
          exact .nil
        | some moved =>
          simp only [Pool.next, hm]
          exact Execution.move .nil (hmove _ _ _ _ hm)
    exact hturn.append (ih _)

end Schedule

end Program
