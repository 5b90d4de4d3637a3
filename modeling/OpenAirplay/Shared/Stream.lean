import Mathlib.Tactic

/-!
# Readers of a stream

A reader takes some symbols off the front of its input and leaves the rest alone. Readers
in sequence read what was written in sequence.
-/

namespace Stream

set_option autoImplicit false

abbrev Reader (B E A : Type) := StateT (List B) (Except E) A

variable {B E A C : Type}

/-! ## Cutting the input -/

/-- Everything up to the first `stop` and with it, all of it when there is none. -/
def splitThrough [DecidableEq B] (stop : B) : List B → List B × List B
  | [] => ([], [])
  | b :: bs =>
    if b = stop then ([b], bs)
    else (b :: (splitThrough stop bs).1, (splitThrough stop bs).2)

theorem splitThrough_append [DecidableEq B] {stop : B} {line : List B} (h : stop ∉ line)
    (rest : List B) : splitThrough stop (line ++ stop :: rest) = (line ++ [stop], rest) := by
  induction line with
  | nil => simp only [List.nil_append, splitThrough, if_true]
  | cons b line ih =>
    have hne : b ≠ stop := fun he => h (he ▸ List.mem_cons_self)
    have hmem : stop ∉ line := fun hm => h (List.mem_cons_of_mem _ hm)
    simp only [List.cons_append, splitThrough, if_neg hne, ih hmem]

theorem splitThrough_join [DecidableEq B] (stop : B) (input : List B) :
    (splitThrough stop input).1 ++ (splitThrough stop input).2 = input := by
  induction input with
  | nil => rfl
  | cons b bs ih =>
    by_cases hb : b = stop
    · simp only [splitThrough, if_pos hb, List.singleton_append]
    · simp only [splitThrough, if_neg hb, List.cons_append, ih]

/-- Only the last symbol of a line can be its end. -/
theorem stop_notMem_dropLast [DecidableEq B] (stop : B) (input : List B) :
    stop ∉ (splitThrough stop input).1.dropLast := by
  induction input with
  | nil => simp [splitThrough]
  | cons b bs ih =>
    by_cases hb : b = stop
    · simp [splitThrough, hb]
    · simp only [splitThrough, if_neg hb]
      cases hline : (splitThrough stop bs).1 with
      | nil => simp
      | cons c line =>
        rw [hline] at ih
        simp only [List.dropLast_cons_cons, List.mem_cons, not_or]
        exact ⟨Ne.symm hb, ih⟩

/-- Everything through the next `stop`; nothing at the end of the input. -/
def through [DecidableEq B] (stop : B) : Reader B E (List B) := fun input =>
  .ok (splitThrough stop input)

/-- Exactly `n` symbols, or `short` when the input ends before. -/
def exactly (short : E) (n : Nat) : Reader B E (List B) := fun input =>
  if input.length < n then .error short else .ok (input.take n, input.drop n)

/-! ## What became of the input -/

theorem pure_eq_ok {a b : A} {input rest : List B} :
    (pure a : Reader B E A) input = .ok (b, rest) ↔ a = b ∧ input = rest := by
  change Except.ok (a, input) = .ok (b, rest) ↔ _
  simp

theorem lift_eq_ok {result : Except E A} {a : A} {input rest : List B} :
    (liftM result : Reader B E A) input = .ok (a, rest) ↔ result = .ok a ∧ input = rest := by
  cases result with
  | error e =>
    constructor
    · intro h
      cases h
    · rintro ⟨h, -⟩
      cases h
  | ok b =>
    change Except.ok (b, input) = .ok (a, rest) ↔ _
    simp

theorem bind_eq_ok {reader : Reader B E A} {next : A → Reader B E C} {input rest : List B}
    {c : C} : (reader >>= next) input = .ok (c, rest) ↔
      ∃ a mid, reader input = .ok (a, mid) ∧ next a mid = .ok (c, rest) := by
  change (reader input).bind _ = _ ↔ _
  cases hread : reader input with
  | error e =>
    constructor
    · intro h
      cases h
    · rintro ⟨a, mid, h, -⟩
      cases h
  | ok found =>
    constructor
    · exact fun h => ⟨found.1, found.2, rfl, h⟩
    · rintro ⟨a, mid, h, hnext⟩
      cases h
      exact hnext

theorem through_eq_ok [DecidableEq B] {stop : B} {line input rest : List B} :
    (through stop : Reader B E (List B)) input = .ok (line, rest) ↔
      splitThrough stop input = (line, rest) := by
  simp only [through, Except.ok.injEq]

theorem exactly_eq_ok {short : E} {n : Nat} {taken input rest : List B} :
    (exactly short n : Reader B E (List B)) input = .ok (taken, rest) ↔
      taken.length = n ∧ input = taken ++ rest := by
  unfold exactly
  split
  · rename_i hshort
    constructor
    · intro h
      cases h
    · rintro ⟨rfl, rfl⟩
      rw [List.length_append] at hshort
      omega
  · rename_i hlong
    constructor
    · intro h
      cases h
      exact ⟨List.length_take_of_le (Nat.le_of_not_lt hlong), (List.take_append_drop n input).symm⟩
    · rintro ⟨rfl, rfl⟩
      rw [List.take_left, List.drop_left]

/-! ## What a reader takes -/

/-- Whatever follows `symbols`, the reader takes just these and returns `a`. -/
def Reads (reader : Reader B E A) (symbols : List B) (a : A) : Prop :=
  ∀ rest, reader (symbols ++ rest) = .ok (a, rest)

namespace Reads

variable {reader : Reader B E A} {next : A → Reader B E C} {symbols more : List B} {a : A} {c : C}

theorem pure (a : A) : Reads (pure a : Reader B E A) [] a := fun _ => rfl

theorem lift (a : A) : Reads (liftM (.ok a : Except E A) : Reader B E A) [] a := fun _ => rfl

theorem bind (h : Reads reader symbols a) (hnext : Reads (next a) more c) :
    Reads (reader >>= next) (symbols ++ more) c := by
  intro rest
  rw [List.append_assoc]
  change (reader (symbols ++ (more ++ rest))).bind _ = _
  rw [h]
  exact hnext rest

/-- A reader whose last step takes nothing more. -/
theorem bind_last (h : Reads reader symbols a) (hnext : Reads (next a) [] c) :
    Reads (reader >>= next) symbols c := by
  have hboth := h.bind hnext
  rwa [List.append_nil] at hboth

theorem through [DecidableEq B] {stop : B} {line : List B} (h : stop ∉ line) :
    Reads (Stream.through stop : Reader B E (List B)) (line ++ [stop]) (line ++ [stop]) := by
  intro rest
  rw [List.append_assoc, List.singleton_append, Stream.through, splitThrough_append h]

theorem exactly (short : E) (symbols : List B) :
    Reads (Stream.exactly short symbols.length) symbols symbols := by
  intro rest
  have hlength : ¬(symbols ++ rest).length < symbols.length := by simp
  simp only [Stream.exactly, if_neg hlength, List.take_left, List.drop_left]

end Reads

/-! ## One reader again and again -/

def times (reader : Reader B E A) : Nat → Reader B E (List A)
  | 0 => pure []
  | n + 1 => do
    let a ← reader
    let as ← times reader n
    pure (a :: as)

theorem times_succ_last {reader : Reader B E A} {n : Nat} {input rest rest' : List B}
    {as : List A} {a : A} (h : times reader n input = .ok (as, rest))
    (hlast : reader rest = .ok (a, rest')) :
    times reader (n + 1) input = .ok (as ++ [a], rest') := by
  induction n generalizing input as with
  | zero =>
    cases h
    change (reader rest).bind _ = _
    rw [hlast]
    rfl
  | succ n ih =>
    change (reader input).bind _ = _ at h
    change (reader input).bind _ = _
    cases hfirst : reader input with
    | error e =>
      rw [hfirst] at h
      cases h
    | ok first =>
      obtain ⟨b, mid⟩ := first
      rw [hfirst] at h
      change (times reader n mid).bind _ = _ at h
      change (times reader (n + 1) mid).bind _ = _
      cases hmid : times reader n mid with
      | error e =>
        rw [hmid] at h
        cases h
      | ok many =>
        obtain ⟨bs, last⟩ := many
        rw [hmid] at h
        cases h
        rw [ih hmid]
        rfl

/-- What is written back to back is read one after the other. -/
theorem Reads.times {W : Type} {reader : Reader B E A} {write : W → List B} {value : W → A}
    {ws : List W} (h : ∀ w ∈ ws, Reads reader (write w) (value w)) :
    Reads (times reader ws.length) (ws.flatMap write) (ws.map value) := by
  induction ws with
  | nil => exact Reads.pure []
  | cons w ws ih =>
    have hfirst := h w List.mem_cons_self
    have hrest := ih fun w hw => h w (List.mem_cons_of_mem _ hw)
    exact hfirst.bind (hrest.bind_last (Reads.pure _))

/-! ## Until nothing more is found -/

/-- At most `n` finds, and what is left behind them. -/
def many (find : List B → Option (A × List B)) : Nat → List B → List A × List B
  | 0, input => ([], input)
  | n + 1, input =>
    match find input with
    | none => ([], input)
    | some (a, rest) => (a :: (many find n rest).1, (many find n rest).2)

/-- No find takes fewer symbols. -/
def Takes (find : List B → Option (A × List B)) (least : Nat) : Prop :=
  ∀ input a rest, find input = some (a, rest) → rest.length + least ≤ input.length

section Many

variable {find : List B → Option (A × List B)} {least : Nat}

theorem many_of_none {input : List B} (h : find input = none) (n : Nat) :
    many find n input = ([], input) := by
  cases n with
  | zero => rfl
  | succ n => simp only [many, h]

theorem many_of_some {input rest : List B} {a : A} (h : find input = some (a, rest)) (n : Nat) :
    many find (n + 1) input = (a :: (many find n rest).1, (many find n rest).2) := by
  simp only [many, h]

theorem Takes.turns (h : Takes find least) (hpos : 0 < least) {input rest : List B} {a : A}
    (hfind : find input = some (a, rest)) : rest.length / least + 1 ≤ input.length / least := by
  have hle := h input a rest hfind
  rw [← Nat.add_div_right _ hpos]
  exact Nat.div_le_div_right hle

/-- As many turns as fit into the input are enough. -/
theorem Takes.many_eq (h : Takes find least) (hpos : 0 < least) {n m : Nat} {input : List B}
    (hn : input.length / least ≤ n) (hm : input.length / least ≤ m) :
    many find n input = many find m input := by
  induction n generalizing m input with
  | zero =>
    cases hfind : find input with
    | none => rw [many_of_none hfind, many_of_none hfind]
    | some found =>
      obtain ⟨a, rest⟩ := found
      have hturns := h.turns hpos hfind
      exact absurd (hturns.trans hn) (Nat.not_succ_le_zero _)
  | succ n ih =>
    cases hfind : find input with
    | none => rw [many_of_none hfind, many_of_none hfind]
    | some found =>
      obtain ⟨a, rest⟩ := found
      have hturns := h.turns hpos hfind
      cases m with
      | zero => exact absurd (hturns.trans hm) (Nat.not_succ_le_zero _)
      | succ m =>
        have hn' := Nat.le_of_succ_le_succ (hturns.trans hn)
        have hm' := Nat.le_of_succ_le_succ (hturns.trans hm)
        rw [many_of_some hfind, many_of_some hfind, ih hn' hm']

variable {W : Type} {write : W → List B} {value : W → A} {ws : List W} {tail : List B}

theorem many_append (hwrite : ∀ w ∈ ws, ∀ rest, find (write w ++ rest) = some (value w, rest))
    (htail : find tail = none) {n : Nat} (hn : ws.length ≤ n) :
    many find n (ws.flatMap write ++ tail) = (ws.map value, tail) := by
  induction ws generalizing n with
  | nil => exact many_of_none htail n
  | cons w ws ih =>
    cases n with
    | zero => simp at hn
    | succ n =>
      have hrest := ih (fun w hw => hwrite w (List.mem_cons_of_mem _ hw)) (Nat.le_of_succ_le_succ hn)
      rw [List.flatMap_cons, List.append_assoc, many_of_some (hwrite w List.mem_cons_self _), hrest]
      rfl

/-- What is written back to back is found again, up to what ends it. -/
theorem Takes.many_append (h : Takes find least) (hpos : 0 < least)
    (hwrite : ∀ w ∈ ws, ∀ rest, find (write w ++ rest) = some (value w, rest))
    (htail : find tail = none) {n : Nat} (hn : (ws.flatMap write ++ tail).length / least ≤ n) :
    many find n (ws.flatMap write ++ tail) = (ws.map value, tail) := by
  rw [h.many_eq hpos hn (Nat.le_max_left _ ws.length)]
  exact Stream.many_append hwrite htail (Nat.le_max_right _ _)

end Many

end Stream
