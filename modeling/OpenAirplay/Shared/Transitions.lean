/-!
# Runs of a labelled transition relation

Invariants along a run, and runs carried over a map of states and labels.
-/

universe u v w x

set_option autoImplicit false

namespace Transitions

variable {S : Type u} {L : Type v}

inductive Run (step : S → L → S → Prop) : S → List L → S → Prop where
  | nil (s : S) : Run step s [] s
  | cons {s t u : S} {l : L} {ls : List L} :
    step s l t → Run step t ls u → Run step s (l :: ls) u

namespace Run

variable {step : S → L → S → Prop}

theorem single {s t : S} {l : L} (h : step s l t) : Run step s [l] t := .cons h (.nil t)

theorem append {s t u : S} {ls ls' : List L} (h : Run step s ls t) (h' : Run step t ls' u) :
    Run step s (ls ++ ls') u := by
  induction h with
  | nil _ => exact h'
  | cons hstep _ ih => exact .cons hstep (ih h')

theorem split {s u : S} {ls ls' : List L} (h : Run step s (ls ++ ls') u) :
    ∃ t, Run step s ls t ∧ Run step t ls' u := by
  induction ls generalizing s with
  | nil => exact ⟨s, .nil s, h⟩
  | cons l ls ih =>
    cases h with
    | cons hstep hrest =>
      obtain ⟨t, hls, hls'⟩ := ih hrest
      exact ⟨t, .cons hstep hls, hls'⟩

/-- What steps with allowed labels preserve, and what they show, runs with such labels do. -/
theorem invariant {inv : S → Prop} {allowed shown : L → Prop}
    (hstep : ∀ s l t, inv s → allowed l → step s l t → inv t ∧ shown l) {s t : S} {ls : List L}
    (h : Run step s ls t) (hs : inv s) (hls : ∀ l ∈ ls, allowed l) :
    inv t ∧ ∀ l ∈ ls, shown l := by
  induction h with
  | nil _ => exact ⟨hs, by simp⟩
  | cons hfirst _ ih =>
    obtain ⟨ht, hshown⟩ := hstep _ _ _ hs (hls _ List.mem_cons_self) hfirst
    obtain ⟨hu, hrest⟩ := ih ht fun l hl => hls l (List.mem_cons_of_mem _ hl)
    exact ⟨hu, List.forall_mem_cons.mpr ⟨hshown, hrest⟩⟩

variable {S' : Type w} {L' : Type x} {step' : S' → L' → S' → Prop} {f : S → S'} {g : L → L'}

/-- A map that takes steps to steps takes runs to runs. -/
theorem map (hstep : ∀ s l t, step s l t → step' (f s) (g l) (f t)) {s t : S} {ls : List L}
    (h : Run step s ls t) : Run step' (f s) (ls.map g) (f t) := by
  induction h with
  | nil s => exact .nil (f s)
  | cons hfirst _ ih => exact .cons (hstep _ _ _ hfirst) ih

/-- A map that reflects steps reflects runs, through labels of a chosen kind. -/
theorem lift {allowed : L → Prop}
    (hstep : ∀ s l' t', step' (f s) l' t' → ∃ l t, step s l t ∧ allowed l ∧ g l = l' ∧ f t = t')
    {s : S} {t' : S'} {ls' : List L'} (h : Run step' (f s) ls' t') :
    ∃ ls t, Run step s ls t ∧ (∀ l ∈ ls, allowed l) ∧ ls.map g = ls' ∧ f t = t' := by
  generalize hs : f s = s' at h
  induction h generalizing s with
  | nil _ => exact ⟨[], s, .nil s, by simp, rfl, hs⟩
  | cons hfirst _ ih =>
    subst hs
    obtain ⟨l, t, hlift, hallowed, rfl, rfl⟩ := hstep _ _ _ hfirst
    obtain ⟨ls, u, hrun, hls, rfl, rfl⟩ := ih rfl
    exact ⟨l :: ls, u, .cons hlift hrun, List.forall_mem_cons.mpr ⟨hallowed, hls⟩, rfl, rfl⟩

end Run

end Transitions
