import Mathlib.Logic.Function.Basic
import Mathlib.Tactic

/-!
# Programs over atomic operations

A program performs one operation at a time and goes on with its answer. What the
operations do is left open: `Runs` lets every answer happen, `Obeys` checks a program
against a protocol whatever the answers, and `Pool` interleaves the operations of
several programs over a shared state.
-/

universe u v w x

set_option autoImplicit false

inductive Program (Op : Type u) (Res : Op → Type v) (α : Type v) : Type (max u v) where
  | done (a : α)
  | op (o : Op) (next : Res o → Program Op Res α)

namespace Program

variable {Op : Type u} {Res : Op → Type v} {α β : Type v}

protected def bind : Program Op Res α → (α → Program Op Res β) → Program Op Res β
  | .done a, f => f a
  | .op o next, f => .op o fun r => (next r).bind f

instance : Monad (Program Op Res) where
  pure := Program.done
  bind := Program.bind

def perform (o : Op) : Program Op Res (Res o) := .op o Program.done

theorem bind_done (p : Program Op Res α) : p.bind Program.done = p := by
  induction p with
  | done a => rfl
  | op o next ih => exact congrArg (op o) (funext ih)

theorem bind_bind {γ : Type v} (p : Program Op Res α) (f : α → Program Op Res β)
    (g : β → Program Op Res γ) : (p.bind f).bind g = p.bind fun a => (f a).bind g := by
  induction p with
  | done a => rfl
  | op o next ih => exact congrArg (op o) (funext ih)

instance : LawfulMonad (Program Op Res) :=
  .mk' _ bind_done (fun _ _ => rfl) bind_bind

/-! ## Runs -/

/-- An operation with the answer it got. -/
abbrev Call (Res : Op → Type v) := Σ o, Res o

/-- `p` can perform `trace` and end with `a`, for some answers of its surroundings. -/
inductive Runs : Program Op Res α → List (Call Res) → α → Prop where
  | done (a : α) : Runs (.done a) [] a
  | op {o : Op} {next : Res o → Program Op Res α} {r : Res o} {trace : List (Call Res)} {a : α} :
    Runs (next r) trace a → Runs (.op o next) (⟨o, r⟩ :: trace) a

@[simp] theorem runs_pure {a b : α} {trace : List (Call Res)} :
    Runs (pure a : Program Op Res α) trace b ↔ trace = [] ∧ b = a := by
  constructor
  · rintro ⟨⟩
    exact ⟨rfl, rfl⟩
  · rintro ⟨rfl, rfl⟩
    exact .done _

@[simp] theorem runs_perform {o : Op} {trace : List (Call Res)} {r : Res o} :
    Runs (perform o) trace r ↔ trace = [⟨o, r⟩] := by
  constructor
  · intro h
    cases h with
    | op h =>
      cases h
      rfl
  · rintro rfl
    exact .op (.done r)

theorem runs_bind {p : Program Op Res α} {f : α → Program Op Res β} {trace : List (Call Res)}
    {b : β} : Runs (p >>= f) trace b ↔
      ∃ before a after, trace = before ++ after ∧ Runs p before a ∧ Runs (f a) after b := by
  constructor
  · intro h
    induction p generalizing trace with
    | done a => exact ⟨[], a, trace, rfl, .done a, h⟩
    | op o next ih =>
      cases h with
      | op h =>
        obtain ⟨before, a, after, rfl, hp, hf⟩ := ih _ h
        exact ⟨_ :: before, a, after, rfl, .op hp, hf⟩
  · rintro ⟨before, a, after, rfl, hp, hf⟩
    induction hp with
    | done a => exact hf
    | op _ ih => exact .op (ih hf)

theorem runs_perform_bind {o : Op} {f : Res o → Program Op Res β} {trace : List (Call Res)}
    {b : β} : Runs (perform o >>= f) trace b ↔
      ∃ r after, trace = ⟨o, r⟩ :: after ∧ Runs (f r) after b := by
  constructor
  · intro h
    cases h with
    | op h => exact ⟨_, _, rfl, h⟩
  · rintro ⟨r, after, rfl, h⟩
    exact .op h

theorem runs_pure_bind {a : α} {f : α → Program Op Res β} {trace : List (Call Res)} {b : β} :
    Runs (pure a >>= f) trace b ↔ Runs (f a) trace b := by
  rw [pure_bind]

theorem runs_map {p : Program Op Res α} {f : α → β} {trace : List (Call Res)} {b : β} :
    Runs (f <$> p) trace b ↔ ∃ a, Runs p trace a ∧ b = f a := by
  rw [← bind_pure_comp, runs_bind]
  constructor
  · rintro ⟨before, a, after, rfl, hp, hf⟩
    obtain ⟨rfl, rfl⟩ := runs_pure.mp hf
    exact ⟨a, by simpa using hp, rfl⟩
  · rintro ⟨a, hp, rfl⟩
    exact ⟨trace, a, [], by simp, hp, runs_pure.mpr ⟨rfl, rfl⟩⟩

/-- The run in which every operation gets the answer `respond` gives for it. -/
def execute (respond : (o : Op) → Res o) : Program Op Res α → List (Call Res) × α
  | .done a => ([], a)
  | .op o next =>
    let (trace, a) := (next (respond o)).execute respond
    (⟨o, respond o⟩ :: trace, a)

theorem runs_execute (respond : (o : Op) → Res o) (p : Program Op Res α) :
    Runs p (p.execute respond).1 (p.execute respond).2 := by
  induction p with
  | done a => exact .done a
  | op o next ih => exact .op (ih (respond o))

/-- What surroundings answer, they answer in the whole run. -/
theorem answer_of_mem_execute {respond : (o : Op) → Res o} {p : Program Op Res α} {call : Call Res}
    (h : call ∈ (p.execute respond).1) : call.2 = respond call.1 := by
  induction p with
  | done a => cases h
  | op o next ih =>
    rcases List.mem_cons.mp h with rfl | hrest
    · rfl
    · exact ih (respond o) hrest

/-! ## Results -/

/-- Whatever the answers, the result satisfies `post`. -/
def Returns (p : Program Op Res α) (post : α → Prop) : Prop := ∀ trace a, Runs p trace a → post a

theorem Returns.pure {post : α → Prop} {a : α} (h : post a) :
    Returns (pure a : Program Op Res α) post := by
  intro trace b hrun
  obtain ⟨-, rfl⟩ := runs_pure.mp hrun
  exact h

theorem Returns.bind {p : Program Op Res α} {f : α → Program Op Res β} {mid : α → Prop}
    {post : β → Prop} (h : Returns p mid) (hnext : ∀ a, mid a → Returns (f a) post) :
    Returns (p >>= f) post := by
  intro trace b hrun
  obtain ⟨before, a, after, -, hp, hf⟩ := runs_bind.mp hrun
  exact hnext a (h before a hp) after b hf

theorem Returns.bind_any {p : Program Op Res α} {f : α → Program Op Res β} {post : β → Prop}
    (hnext : ∀ a, Returns (f a) post) : Returns (p >>= f) post := by
  have hany : Returns p fun _ => True := fun _ _ _ => trivial
  exact hany.bind fun a _ => hnext a

/-! ## Protocols -/

/-- What a program may do next, given `G` about its own past operations. -/
structure Protocol (Op : Type u) (Res : Op → Type v) (G : Type w) where
  allowed : G → Op → Prop
  after : G → Call Res → G

variable {G : Type w}

/-- Every operation of the program is allowed when it is performed, whatever the answers,
and `post` holds of the result. -/
def Obeys (P : Protocol Op Res G) : Program Op Res α → (α → G → Prop) → G → Prop
  | .done a, post, g => post a g
  | .op o next, post, g => P.allowed g o ∧ ∀ r, (next r).Obeys P post (P.after g ⟨o, r⟩)

section Obeys

variable {P : Protocol Op Res G}

/-- The whole trace is allowed, and leads from `g` to `g'`. -/
def Protocol.Leads (P : Protocol Op Res G) : G → List (Call Res) → G → Prop
  | g, [], g' => g' = g
  | g, call :: trace, g' => P.allowed g call.1 ∧ P.Leads (P.after g call) trace g'

@[simp] theorem leads_nil {g g' : G} : P.Leads g [] g' ↔ g' = g := Iff.rfl

@[simp] theorem leads_cons {g g' : G} {call : Call Res} {trace : List (Call Res)} :
    P.Leads g (call :: trace) g' ↔ P.allowed g call.1 ∧ P.Leads (P.after g call) trace g' := Iff.rfl

theorem leads_append {g g' : G} {trace trace' : List (Call Res)} :
    P.Leads g (trace ++ trace') g' ↔ ∃ mid, P.Leads g trace mid ∧ P.Leads mid trace' g' := by
  induction trace generalizing g with
  | nil => simp
  | cons call trace ih => simp [ih, and_assoc]

/-- A program all of whose runs are allowed obeys the protocol, since every run can end. -/
theorem obeys_of_runs [hres : ∀ o, Nonempty (Res o)] {p : Program Op Res α} {post : α → G → Prop}
    {g : G} (h : ∀ trace a, Runs p trace a → ∃ g', P.Leads g trace g' ∧ post a g') :
    Obeys P p post g := by
  induction p generalizing g with
  | done a =>
    obtain ⟨g', rfl, hpost⟩ := h [] a (.done a)
    exact hpost
  | op o next ih =>
    have hrest : ∀ r trace a, Runs (next r) trace a →
        P.allowed g o ∧ ∃ g', P.Leads (P.after g ⟨o, r⟩) trace g' ∧ post a g' := by
      intro r trace a hrun
      obtain ⟨g', ⟨hallowed, hleads⟩, hpost⟩ := h _ a (.op hrun)
      exact ⟨hallowed, g', hleads, hpost⟩
    refine ⟨?_, fun r => ih r fun trace a hrun => (hrest r trace a hrun).2⟩
    let r : Res o := Classical.choice (hres o)
    exact (hrest r _ _ (runs_execute (fun o => Classical.choice (hres o)) (next r))).1

end Obeys

/-! ## Interleavings -/

structure Pool (ι : Type x) (Op : Type u) (Res : Op → Type v) (α : Type v) (W : Type w) where
  threads : ι → Program Op Res α
  shared : W

section Pool

variable {ι : Type x} [DecidableEq ι] {W : Type w}
  (world : ι → W → (o : Op) → Res o → W → Prop)

/-- Thread `i` performs its next operation, with an answer the shared state allows. -/
inductive PoolStep : Pool ι Op Res α W → ι × Call Res → Pool ι Op Res α W → Prop where
  | mk {c : Pool ι Op Res α W} {i : ι} {o : Op} {next : Res o → Program Op Res α} {r : Res o}
    {shared : W} : c.threads i = .op o next → world i c.shared o r shared →
      PoolStep c (i, ⟨o, r⟩) ⟨Function.update c.threads i (next r), shared⟩

/-- What the pool can do from `start`, in any order of its threads. -/
inductive PoolRun (start : Pool ι Op Res α W) :
    List (ι × Call Res) → Pool ι Op Res α W → Prop where
  | nil : PoolRun start [] start
  | snoc {trace : List (ι × Call Res)} {c c' : Pool ι Op Res α W} {step : ι × Call Res} :
    PoolRun start trace c → PoolStep world c step c' → PoolRun start (trace ++ [step]) c'

/-- Thread `i`'s own past, as its protocol sees it. -/
def view (P : Protocol Op Res G) (g : G) (i : ι) (trace : List (ι × Call Res)) : G :=
  trace.foldl (fun g step => if step.1 = i then P.after g step.2 else g) g

variable {world}

theorem view_snoc_self (P : Protocol Op Res G) (g : G) (i : ι) (trace : List (ι × Call Res))
    (call : Call Res) :
    view P g i (trace ++ [(i, call)]) = P.after (view P g i trace) call := by
  simp [view]

theorem view_snoc_of_ne (P : Protocol Op Res G) (g : G) {i j : ι} (h : i ≠ j)
    (trace : List (ι × Call Res)) (call : Call Res) :
    view P g j (trace ++ [(i, call)]) = view P g j trace := by
  simp [view, h]

/-- Threads that obey a protocol on their own obey it in every interleaving. -/
theorem PoolRun.obeys {start c : Pool ι Op Res α W} {trace : List (ι × Call Res)}
    (hrun : PoolRun world start trace c) {P : Protocol Op Res G} {g : G}
    {post : α → G → Prop} (h : ∀ i, Obeys P (start.threads i) post g) (i : ι) :
    Obeys P (c.threads i) post (view P g i trace) := by
  induction hrun with
  | nil => exact h i
  | snoc _ hstep ih =>
    cases hstep with
    | @mk j o next r shared hthread hworld =>
      by_cases hij : j = i
      · subst hij
        rw [hthread] at ih
        rw [view_snoc_self]
        simpa only [Function.update_self] using ih.2 r
      · rw [view_snoc_of_ne P g hij]
        simpa only [Function.update_of_ne (Ne.symm hij)] using ih

theorem PoolRun.allowed {start c c' : Pool ι Op Res α W} {trace : List (ι × Call Res)}
    (hrun : PoolRun world start trace c) {P : Protocol Op Res G} {g : G}
    {post : α → G → Prop} (h : ∀ i, Obeys P (start.threads i) post g) {i : ι} {call : Call Res}
    (hstep : PoolStep world c (i, call) c') : P.allowed (view P g i trace) call.1 := by
  cases hstep with
  | mk hthread _ =>
    have hobeys := hrun.obeys h i
    rw [hthread] at hobeys
    exact hobeys.1

/-- One scheduled turn, under surroundings that compute their answer. -/
def Pool.turn (respond : ι → W → (o : Op) → Res o × W) (c : Pool ι Op Res α W) (i : ι) :
    Pool ι Op Res α W × List (ι × Call Res) :=
  match c.threads i with
  | .done _ => (c, [])
  | .op o next =>
    (⟨Function.update c.threads i (next (respond i c.shared o).1), (respond i c.shared o).2⟩,
      [(i, ⟨o, (respond i c.shared o).1⟩)])

def Pool.play (respond : ι → W → (o : Op) → Res o × W) :
    Pool ι Op Res α W → List ι → Pool ι Op Res α W × List (ι × Call Res)
  | c, [] => (c, [])
  | c, i :: schedule =>
    let (c', did) := c.turn respond i
    let (c'', rest) := c'.play respond schedule
    (c'', did ++ rest)

theorem PoolRun.append {start mid last : Pool ι Op Res α W} {trace trace' : List (ι × Call Res)}
    (h : PoolRun world start trace mid) (h' : PoolRun world mid trace' last) :
    PoolRun world start (trace ++ trace') last := by
  induction h' with
  | nil => simpa using h
  | snoc _ hstep ih =>
    rw [← List.append_assoc]
    exact ih.snoc hstep

theorem Pool.play_run {respond : ι → W → (o : Op) → Res o × W}
    (hrespond : ∀ i w o, world i w o (respond i w o).1 (respond i w o).2)
    (c : Pool ι Op Res α W) (schedule : List ι) :
    PoolRun world c (c.play respond schedule).2 (c.play respond schedule).1 := by
  induction schedule generalizing c with
  | nil => exact .nil
  | cons i schedule ih =>
    have hturn : PoolRun world c (c.turn respond i).2 (c.turn respond i).1 := by
      unfold Pool.turn
      split
      · exact .nil
      · rename_i o next hthread
        exact PoolRun.snoc .nil (.mk hthread (hrespond i c.shared o))
    exact hturn.append (ih _)

end Pool

end Program
