import Mathlib.Tactic

/-!
# In-order reassembly of a numbered stream

What a reorder buffer is for, independently of any ring or counter. Frames are
accepted at stream positions and handed out in position order; a position nothing
was accepted for may be given up on once the stream has run far enough ahead.

A history is the chronological list of these events. `Lawful` says that each event
was allowed by what came before it, and `Lawful.outcomes_eq` is the resulting
description of everything handed out.
-/

namespace Reassembly

set_option autoImplicit false

universe u

variable {F : Type u}

/-- `deliver none` gives the next position up; `deliver (some f)` hands `f` out for it. -/
inductive Event (F : Type u) where
  | accept (pos : Nat) (frame : F)
  | deliver (outcome : Option F)

def Event.outcome? : Event F → Option (Option F)
  | .accept _ _ => none
  | .deliver o => some o

def Event.frameAt (p : Nat) : Event F → Option F
  | .accept q f => if q = p then some f else none
  | .deliver _ => none

def outcomes (log : List (Event F)) : List (Option F) := log.filterMap Event.outcome?

/-- The position the next delivery is for. -/
def next (log : List (Event F)) : Nat := (outcomes log).length

/-- The frame accepted last for position `p`. -/
def latest (p : Nat) (log : List (Event F)) : Option F :=
  log.foldl (fun found e => (e.frameAt p).or found) none

def Reached (log : List (Event F)) (n : Nat) : Prop := ∃ q f, Event.accept q f ∈ log ∧ n ≤ q

/-- What may happen after `log`: frames enter inside the window, the next position
gets its latest frame, and only a position `lead` behind is given up on. -/
def Allowed (window lead : Nat) (log : List (Event F)) : Event F → Prop
  | .accept p _ => next log ≤ p ∧ p < next log + window
  | .deliver (some f) => latest (next log) log = some f
  | .deliver none => latest (next log) log = none ∧ Reached log (next log + lead)

/-- The next position can be settled: it has a frame, or the stream ran `lead` past it. -/
def Ready (lead : Nat) (log : List (Event F)) : Prop :=
  latest (next log) log ≠ none ∨ Reached log (next log + lead)

def Lawful (window lead : Nat) (log : List (Event F)) : Prop :=
  ∀ pre e post, log = pre ++ e :: post → Allowed window lead pre e

@[simp] theorem outcomes_append (log log' : List (Event F)) :
    outcomes (log ++ log') = outcomes log ++ outcomes log' := by
  simp [outcomes, List.filterMap_append]

@[simp] theorem outcomes_accept (p : Nat) (f : F) : outcomes [Event.accept p f] = [] := rfl

@[simp] theorem outcomes_deliver (o : Option F) : outcomes [Event.deliver o] = [o] := rfl

@[simp] theorem next_nil : next ([] : List (Event F)) = 0 := rfl

@[simp] theorem next_accept (log : List (Event F)) (p : Nat) (f : F) :
    next (log ++ [.accept p f]) = next log := by simp [next]

@[simp] theorem next_deliver (log : List (Event F)) (o : Option F) :
    next (log ++ [.deliver o]) = next log + 1 := by simp [next]

@[simp] theorem latest_nil (p : Nat) : latest p ([] : List (Event F)) = none := rfl

theorem latest_accept (p q : Nat) (f : F) (log : List (Event F)) :
    latest p (log ++ [.accept q f]) = if q = p then some f else latest p log := by
  simp only [latest, List.foldl_append, List.foldl_cons, List.foldl_nil, Event.frameAt]
  split <;> simp

@[simp] theorem latest_deliver (p : Nat) (o : Option F) (log : List (Event F)) :
    latest p (log ++ [.deliver o]) = latest p log := by
  simp [latest, List.foldl_append, Event.frameAt]

theorem accept_mem_of_latest {p : Nat} {f : F} {log : List (Event F)}
    (h : latest p log = some f) : Event.accept p f ∈ log := by
  induction log using List.reverseRecOn with
  | nil => simp at h
  | append_singleton log e ih =>
    cases e with
    | accept q g =>
      rw [latest_accept] at h
      split at h
      · rename_i hq
        cases h
        simp [hq]
      · exact List.mem_append_left _ (ih h)
    | deliver o => exact List.mem_append_left _ (ih (by simpa using h))

theorem latest_ne_none_of_mem {p : Nat} {f : F} {log : List (Event F)}
    (h : Event.accept p f ∈ log) : latest p log ≠ none := by
  induction log using List.reverseRecOn with
  | nil => cases h
  | append_singleton log e ih =>
    cases e with
    | accept q g =>
      rw [latest_accept]
      split
      · exact Option.some_ne_none g
      · rename_i hq
        apply ih
        simpa [Ne.symm hq] using h
    | deliver o =>
      rw [latest_deliver]
      exact ih (by simpa using h)

theorem latest_eq_none_of_lt {p : Nat} {log : List (Event F)}
    (h : ∀ q f, Event.accept q f ∈ log → q < p) : latest p log = none := by
  cases hl : latest p log with
  | none => rfl
  | some f => exact absurd (h p f (accept_mem_of_latest hl)) (Nat.lt_irrefl p)

/-- `top` is the highest position accepted so far. -/
structure IsTop (log : List (Event F)) (top : Nat) : Prop where
  mem : ∃ f, Event.accept top f ∈ log
  le : ∀ q f, Event.accept q f ∈ log → q ≤ top

theorem isTop_accept_first {log : List (Event F)} (h : ∀ q f, Event.accept q f ∉ log)
    (p : Nat) (f : F) : IsTop (log ++ [.accept p f]) p := by
  refine ⟨⟨f, by simp⟩, ?_⟩
  intro q g hq
  rcases List.mem_append.mp hq with hq | hq
  · exact absurd hq (h q g)
  · simp only [List.mem_singleton, Event.accept.injEq] at hq
    omega

theorem IsTop.accept {log : List (Event F)} {top : Nat} (h : IsTop log top) (p : Nat) (f : F) :
    IsTop (log ++ [.accept p f]) (max top p) := by
  constructor
  · rcases Nat.le_total p top with hp | hp
    · obtain ⟨g, hg⟩ := h.mem
      exact ⟨g, by simp [Nat.max_eq_left hp, hg]⟩
    · exact ⟨f, by simp [Nat.max_eq_right hp]⟩
  · intro q g hq
    rcases List.mem_append.mp hq with hq | hq
    · have := h.le q g hq
      omega
    · simp only [List.mem_singleton, Event.accept.injEq] at hq
      omega

theorem IsTop.deliver {log : List (Event F)} {top : Nat} (h : IsTop log top) (o : Option F) :
    IsTop (log ++ [.deliver o]) top := by
  obtain ⟨f, hf⟩ := h.mem
  refine ⟨⟨f, by simp [hf]⟩, ?_⟩
  intro q g hq
  exact h.le q g (by simpa using hq)

theorem IsTop.reached {log : List (Event F)} {top n : Nat} (h : IsTop log top) (hn : n ≤ top) :
    Reached log n := by
  obtain ⟨f, hf⟩ := h.mem
  exact ⟨top, f, hf, hn⟩

theorem Reached.mono {log : List (Event F)} {n m : Nat} (h : Reached log n) (hm : m ≤ n) :
    Reached log m := by
  obtain ⟨q, f, hq, hn⟩ := h
  exact ⟨q, f, hq, by omega⟩

theorem Reached.accept {log : List (Event F)} {n : Nat} (h : Reached log n) (p : Nat) (f : F) :
    Reached (log ++ [.accept p f]) n := by
  obtain ⟨q, g, hq, hn⟩ := h
  exact ⟨q, g, List.mem_append_left _ hq, hn⟩

theorem reached_accept {log : List (Event F)} (p : Nat) (f : F) :
    Reached (log ++ [.accept p f]) p := ⟨p, f, by simp, Nat.le_refl p⟩

theorem IsTop.reached_iff {log : List (Event F)} {top : Nat} (h : IsTop log top) (n : Nat) :
    Reached log n ↔ n ≤ top := by
  constructor
  · rintro ⟨q, f, hq, hn⟩
    exact Nat.le_trans hn (h.le q f hq)
  · exact h.reached

theorem Ready.accept {lead : Nat} {log : List (Event F)} (h : Ready lead log) (p : Nat) (f : F) :
    Ready lead (log ++ [.accept p f]) := by
  unfold Ready
  rw [next_accept, latest_accept]
  rcases h with h | h
  · left
    split
    · simp
    · exact h
  · exact Or.inr (h.accept p f)

section Laws

variable {window lead : Nat}

@[simp] theorem lawful_nil : Lawful window lead ([] : List (Event F)) := by
  intro pre e post h
  simp at h

theorem lawful_snoc {log : List (Event F)} {e : Event F} :
    Lawful window lead (log ++ [e]) ↔ Lawful window lead log ∧ Allowed window lead log e := by
  constructor
  · intro h
    refine ⟨?_, h log e [] rfl⟩
    intro pre e' post heq
    exact h pre e' (post ++ [e]) (by simp [heq])
  · rintro ⟨h, he⟩ pre e' post heq
    rcases List.eq_nil_or_concat post with rfl | ⟨post', e'', rfl⟩
    · obtain ⟨rfl, heq'⟩ := List.append_inj' heq rfl
      cases heq'
      exact he
    · have heq' : log ++ [e] = (pre ++ e' :: post') ++ [e''] := by simpa using heq
      exact h pre e' post' (List.append_inj' heq' rfl).1

/-- Everything handed out is the latest frame of its position, once each and in order. -/
theorem Lawful.outcomes_eq {log : List (Event F)} (h : Lawful window lead log) :
    outcomes log = (List.range (next log)).map fun p => latest p log := by
  induction log using List.reverseRecOn with
  | nil => rfl
  | append_singleton log e ih =>
    obtain ⟨hlog, he⟩ := lawful_snoc.mp h
    cases e with
    | accept q f =>
      rw [outcomes_append, ih hlog, next_accept, outcomes_accept, List.append_nil]
      apply List.map_congr_left
      intro p hp
      have hlt := List.mem_range.mp hp
      have hq : q ≠ p := by
        have := he.1
        omega
      simp [latest_accept, hq]
    | deliver o =>
      have ho : latest (next log) log = o := by
        cases o with
        | none => exact he.1
        | some f => exact he
      rw [outcomes_append, ih hlog, next_deliver, List.range_succ, List.map_append]
      simp [ho]

theorem Lawful.outcome_at {log : List (Event F)} (h : Lawful window lead log) {p : Nat}
    (hp : p < next log) : (outcomes log)[p]? = some (latest p log) := by
  rw [h.outcomes_eq]
  simp [List.getElem?_range hp]

/-- A position given up on was left that far behind. -/
theorem Lawful.lost_reached {log : List (Event F)} (h : Lawful window lead log) {p : Nat}
    (hp : (outcomes log)[p]? = some none) :
    Reached log (p + lead) := by
  induction log using List.reverseRecOn with
  | nil => simp [outcomes] at hp
  | append_singleton log e ih =>
    obtain ⟨hlog, he⟩ := lawful_snoc.mp h
    cases e with
    | accept q f =>
      rw [outcomes_append, outcomes_accept, List.append_nil] at hp
      exact (ih hlog hp).accept q f
    | deliver o =>
      have hreached : Reached log (p + lead) := by
        rw [outcomes_append, outcomes_deliver] at hp
        rcases Nat.lt_or_ge p (outcomes log).length with hlt | hge
        · rw [List.getElem?_append_left hlt] at hp
          exact ih hlog hp
        · have hlast : p = next log := by
            have hlen := (List.getElem?_eq_some_iff.mp hp).1
            simp only [List.length_append, List.length_singleton] at hlen
            simp only [next]
            omega
          rw [hlast] at hp ⊢
          simp only [next, List.getElem?_concat_length, Option.some.injEq] at hp
          rw [hp] at he
          exact he.2
      obtain ⟨q, f, hq, hle⟩ := hreached
      exact ⟨q, f, List.mem_append_left _ hq, hle⟩

end Laws

end Reassembly
