import Mathlib.Tactic

/-!
# Registers and messages that overwrite them

A message writes a register or leaves it alone, whatever the register holds. What a list of
messages leaves in it is what the last of them to write it wrote, so replaying the last
messages changes nothing.
-/

namespace Register

set_option autoImplicit false

universe u v

variable {M : Type u} {V : Type v}

/-- The register after these messages, where `write m` is what `m` writes, if it does. -/
def after (write : M → Option V) (v : V) (ms : List M) : V :=
  ms.foldl (fun v m => (write m).getD v) v

variable {write : M → Option V} {v : V} {ms : List M} {m : M}

@[simp] theorem after_nil (write : M → Option V) (v : V) : after write v [] = v := rfl

@[simp] theorem after_cons (write : M → Option V) (v : V) (m : M) (ms : List M) :
    after write v (m :: ms) = after write ((write m).getD v) ms := rfl

@[simp] theorem after_append (write : M → Option V) (v : V) (ms ns : List M) :
    after write v (ms ++ ns) = after write (after write v ms) ns := by
  simp only [after, List.foldl_append]

theorem after_of_silent (h : ∀ m ∈ ms, write m = none) : after write v ms = v := by
  induction ms with
  | nil => rfl
  | cons m ms ih =>
    rw [after_cons, h m List.mem_cons_self, Option.getD_none]
    exact ih fun n hn => h n (List.mem_cons_of_mem m hn)

/-- Once written, what the register held before is forgotten. -/
theorem after_of_written (h : ∃ m ∈ ms, write m ≠ none) (v w : V) :
    after write v ms = after write w ms := by
  induction ms generalizing v w with
  | nil =>
    obtain ⟨m, hm, _⟩ := h
    cases hm
  | cons m ms ih =>
    rw [after_cons, after_cons]
    cases hm : write m with
    | some x => rfl
    | none =>
      obtain ⟨n, hn, hwrite⟩ := h
      rcases List.mem_cons.mp hn with rfl | hn
      · exact absurd hm hwrite
      · exact ih ⟨n, hn, hwrite⟩ _ _

theorem silent_or_written (write : M → Option V) (ms : List M) :
    (∀ m ∈ ms, write m = none) ∨ ∃ m ∈ ms, write m ≠ none := by
  by_cases h : ∃ m ∈ ms, write m ≠ none
  · exact .inr h
  · exact .inl fun m hm => not_not.mp fun hne => h ⟨m, hm, hne⟩

/-- Messages already taken in are absorbed when they come again. -/
theorem after_replay (write : M → Option V) (v : V) (ms : List M) :
    after write (after write v ms) ms = after write v ms := by
  rcases silent_or_written write ms with hsilent | hwritten
  · rw [after_of_silent hsilent, after_of_silent hsilent]
  · exact after_of_written hwritten _ _

/-- Two readers that hold different values agree again once it is written. -/
theorem after_eq_iff (write : M → Option V) (v w : V) (ms : List M) :
    after write v ms = after write w ms ↔ v = w ∨ ∃ m ∈ ms, write m ≠ none := by
  rcases silent_or_written write ms with hsilent | hwritten
  · rw [after_of_silent hsilent, after_of_silent hsilent, or_iff_left]
    rintro ⟨m, hm, hne⟩
    exact hne (hsilent m hm)
  · exact ⟨fun _ => .inr hwritten, fun _ => after_of_written hwritten v w⟩

theorem exists_last_write (h : after write v ms ≠ v) :
    ∃ a m b, ms = a ++ m :: b ∧ write m = some (after write v ms) ∧ ∀ n ∈ b, write n = none := by
  induction ms using List.reverseRecOn with
  | nil => exact absurd rfl h
  | append_singleton ms m ih =>
    rw [after_append, after_cons, after_nil] at h ⊢
    cases hm : write m with
    | some x => exact ⟨ms, m, [], rfl, hm, by simp⟩
    | none =>
      rw [hm, Option.getD_none] at h
      obtain ⟨a, last, b, rfl, hlast, hsilent⟩ := ih h
      refine ⟨a, last, b ++ [m], by simp, by rwa [Option.getD_none], ?_⟩
      intro n hn
      rcases List.mem_append.mp hn with hn | hn
      · exact hsilent n hn
      · rw [List.mem_singleton.mp hn, hm]

/-- A value written before `post` stands there and behind it. -/
def Outlasts {W : Type v} (write : M → Option (Option W)) (pre post : List M) : Prop :=
  ∃ a m b w, pre = a ++ m :: b ∧ write m = some (some w) ∧ ∀ n ∈ b ++ post, write n = none

/-- What came before can be forgotten exactly when no value of it outlasts. -/
theorem after_forget_iff {W : Type v} (write : M → Option (Option W)) (pre post : List M) :
    after write none (pre ++ post) = after write none post ↔ ¬Outlasts write pre post := by
  rw [after_append, after_eq_iff, ← not_iff_not, not_not, not_or]
  constructor
  · rintro ⟨hheld, hpost⟩
    obtain ⟨a, m, b, hpre, hm, hb⟩ := exists_last_write hheld
    obtain ⟨w, hw⟩ := Option.ne_none_iff_exists'.mp hheld
    refine ⟨a, m, b, w, hpre, by rw [hm, hw], ?_⟩
    intro n hn
    rcases List.mem_append.mp hn with hn | hn
    · exact hb n hn
    · exact not_not.mp fun hne => hpost ⟨n, hn, hne⟩
  · rintro ⟨a, m, b, w, rfl, hm, hsilent⟩
    constructor
    · rw [after_append, after_cons, hm, after_of_silent]
      · exact Option.some_ne_none w
      · exact fun n hn => hsilent n (List.mem_append_left _ hn)
    · rintro ⟨n, hn, hne⟩
      exact hne (hsilent n (List.mem_append_right _ hn))

theorem after_map {W : Type v} {write' : M → Option W} (f : V → W)
    (h : ∀ m ∈ ms, write' m = (write m).map f) : after write' (f v) ms = f (after write v ms) := by
  induction ms generalizing v with
  | nil => rfl
  | cons m ms ih =>
    rw [after_cons, after_cons, h m List.mem_cons_self]
    have hget : ((write m).map f).getD (f v) = f ((write m).getD v) := by
      cases write m <;> rfl
    rw [hget]
    exact ih fun n hn => h n (List.mem_cons_of_mem m hn)

theorem after_comap {N : Type u} (g : N → M) (v : V) (ns : List N) :
    after write v (ns.map g) = after (fun n => write (g n)) v ns := by
  simp only [after, List.foldl_map]

/-- A reader of translated messages, some of which do not come through, ends with a view of what
the register holds, if that has one and was written at all. -/
theorem after_through {N : Type u} {W : Type v} {write' : N → Option W} {g : M → Option N}
    {f : V → Option W} (hsilent : ∀ m n, write m = none → g m = some n → write' n = none)
    (hwrite : ∀ m x w, write m = some x → f x = some w → ∃ n, g m = some n ∧ write' n = some w)
    (hwritten : ∃ m ∈ ms, write m ≠ none) (v' : W) {w : W} (h : f (after write v ms) = some w) :
    after write' v' (ms.filterMap g) = w := by
  induction ms using List.reverseRecOn with
  | nil =>
    obtain ⟨m, hm, -⟩ := hwritten
    cases hm
  | append_singleton ms m ih =>
    rw [after_append, after_cons, after_nil] at h
    rw [List.filterMap_append, after_append]
    cases hm : write m with
    | some x =>
      rw [hm, Option.getD_some] at h
      obtain ⟨n, hn, hwrite'⟩ := hwrite m x w hm h
      rw [List.filterMap_cons_some hn, List.filterMap_nil, after_cons, after_nil, hwrite',
        Option.getD_some]
    | none =>
      rw [hm, Option.getD_none] at h
      have hbefore : ∃ m ∈ ms, write m ≠ none := by
        obtain ⟨n, hn, hne⟩ := hwritten
        rcases List.mem_append.mp hn with hn | hn
        · exact ⟨n, hn, hne⟩
        · rw [List.mem_singleton.mp hn] at hne
          exact absurd hm hne
      have hquiet : ∀ n ∈ [m].filterMap g, write' n = none := by
        intro n hn
        obtain ⟨m', hm', hg⟩ := List.mem_filterMap.mp hn
        rw [List.mem_singleton.mp hm'] at hg
        exact hsilent m n hm hg
      rw [after_of_silent hquiet]
      exact ih hbefore h

/-- Only some messages write, each a value of its own: the last of them is what stays. -/
theorem after_eq_getLast? {W : Type v} (p : M → Prop) [DecidablePred p] (f : M → W) (ms : List M) :
    after (fun m => if p m then some (some (f m)) else none) none ms =
      ((ms.filter p).getLast?).map f := by
  induction ms using List.reverseRecOn with
  | nil => rfl
  | append_singleton ms m ih =>
    rw [after_append, ih, after_cons, after_nil, List.filter_append]
    by_cases hm : p m
    · simp [hm]
    · simp [hm]

/-- A view of the register can be taken over at any point. -/
theorem after_split {W : Type v} {write' : M → Option W} (f : V → W)
    (h : ∀ m, write' m = (write m).map f) (v : V) (ms ns : List M) :
    after write' (f v) (ms ++ ns) = after write' (f (after write v ms)) ns := by
  rw [after_append, after_map f fun m _ => h m]

/-- A second register written `c` by some messages that leave the first alone: they differ
when the last word is such a message and the first held something else. -/
theorem after_eq_extra_iff {write' : M → Option V} {extra : M → Prop} {c : V}
    (hextra : ∀ m, extra m → write m = none ∧ write' m = some c)
    (hsame : ∀ m, ¬extra m → write' m = write m) (v : V) (ms : List M) :
    after write v ms = after write' v ms ↔
      ¬∃ a e b, ms = a ++ e :: b ∧ extra e ∧ after write v a ≠ c ∧ ∀ m ∈ b, write m = none := by
  induction ms using List.reverseRecOn with
  | nil => simp
  | append_singleton ms m ih =>
    rw [after_append, after_append, after_cons, after_cons, after_nil, after_nil]
    by_cases hm : extra m
    · rw [(hextra m hm).1, (hextra m hm).2, Option.getD_none, Option.getD_some]
      constructor
      · rintro heq ⟨a, e, b, hsplit, he, hne, hsilent⟩
        rcases List.eq_nil_or_concat' b with rfl | ⟨b, last, rfl⟩
        · obtain ⟨rfl, _⟩ := List.append_inj' hsplit rfl
          exact hne heq
        · have hinit : ms ++ [m] = (a ++ e :: b) ++ [last] := by simpa using hsplit
          obtain ⟨rfl, _⟩ := List.append_inj' hinit rfl
          rw [after_append, after_cons, (hextra e he).1, Option.getD_none, after_of_silent] at heq
          · exact hne heq
          · exact fun n hn => hsilent n (List.mem_append_left _ hn)
      · intro hnone
        by_contra hne
        exact hnone ⟨ms, m, [], rfl, hm, hne, by simp⟩
    · rw [hsame m hm]
      cases hwrite : write m with
      | some x =>
        refine ⟨fun _ => ?_, fun _ => rfl⟩
        rintro ⟨a, e, b, hsplit, he, _, hsilent⟩
        rcases List.eq_nil_or_concat' b with rfl | ⟨b, last, rfl⟩
        · obtain ⟨_, hlast⟩ := List.append_inj' hsplit rfl
          cases hlast
          exact hm he
        · have hinit : ms ++ [m] = (a ++ e :: b) ++ [last] := by simpa using hsplit
          obtain ⟨_, hlast⟩ := List.append_inj' hinit rfl
          cases hlast
          rw [hsilent m (by simp)] at hwrite
          cases hwrite
      | none =>
        rw [Option.getD_none, Option.getD_none, ih, not_iff_not]
        constructor
        · rintro ⟨a, e, b, rfl, he, hne, hsilent⟩
          refine ⟨a, e, b ++ [m], by simp, he, hne, ?_⟩
          intro n hn
          rcases List.mem_append.mp hn with hn | hn
          · exact hsilent n hn
          · rw [List.mem_singleton.mp hn, hwrite]
        · rintro ⟨a, e, b, hsplit, he, hne, hsilent⟩
          rcases List.eq_nil_or_concat' b with rfl | ⟨b, last, rfl⟩
          · obtain ⟨_, hlast⟩ := List.append_inj' hsplit rfl
            cases hlast
            exact absurd he hm
          · have hinit : ms ++ [m] = (a ++ e :: b) ++ [last] := by simpa using hsplit
            obtain ⟨rfl, _⟩ := List.append_inj' hinit rfl
            exact ⟨a, e, b, rfl, he, hne, fun n hn => hsilent n (List.mem_append_left _ hn)⟩

end Register
