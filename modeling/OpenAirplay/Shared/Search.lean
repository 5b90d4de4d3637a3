import Mathlib.Tactic

/-!
# Searching a list

Where one list stands in another, the pieces between its occurrences, and what is from the
last of them on. Where the first symbol of a list is not among the others of it, no occurrence
reaches into a part of the text that begins with that symbol.
-/

namespace Search

set_option autoImplicit false

universe u

variable {A : Type u} {e : A} {needle p q : List A}

theorem prefix_append_cons (h : e ∉ needle) :
    needle <+: p ++ e :: q ↔ needle <+: p := by
  refine ⟨fun hpre => ?_, fun hpre => hpre.trans (List.prefix_append _ _)⟩
  rcases le_or_gt needle.length p.length with hle | hlt
  · exact List.prefix_of_prefix_length_le hpre (List.prefix_append _ _) hle
  · have hlong : p ++ [e] <+: needle :=
      List.prefix_of_prefix_length_le ⟨q, by simp⟩ hpre (by simpa using hlt)
    exact absurd (hlong.subset (by simp)) h

/-- A symbol that is not searched for parts the text. -/
theorem infix_append_cons (h : e ∉ needle) :
    needle <:+: p ++ e :: q ↔ needle <:+: p ∨ needle <:+: q := by
  induction p with
  | nil =>
    rw [List.nil_append, List.infix_cons_iff, List.infix_nil]
    refine or_congr_left ⟨fun hpre => ?_, ?_⟩
    · exact List.prefix_nil.mp ((prefix_append_cons (p := []) h).mp hpre)
    · rintro rfl
      exact ⟨e :: q, rfl⟩
  | cons x p ih =>
    rw [List.cons_append, List.infix_cons_iff, List.infix_cons_iff, ih, ← List.cons_append,
      prefix_append_cons h, or_assoc]

/-- So does the first symbol of what is searched for. -/
theorem infix_append_first {m : List A} (h : e ∉ m) :
    e :: m <:+: p ++ e :: q ↔ e :: m <:+: p ∨ e :: m <:+: e :: q := by
  induction p with
  | nil => simp
  | cons x p ih =>
    have hpre : e :: m <+: x :: (p ++ e :: q) ↔ e :: m <+: x :: p := by
      rw [List.cons_prefix_cons, List.cons_prefix_cons, prefix_append_cons h]
    rw [List.cons_append, List.infix_cons_iff, ih, hpre, ← or_assoc, ← List.infix_cons_iff]

theorem not_infix_of_notMem {m : List A} (h : e ∉ p) : ¬e :: m <:+: p :=
  fun hocc => h (hocc.subset List.mem_cons_self)

variable [DecidableEq A]

/-! ## The pieces -/

/-- The pieces between the occurrences of a separator that is not empty; `skip` symbols of the
last occurrence are still to be passed over. -/
def piecesFrom (sep : List A) : Nat → List A → List (List A)
  | _, [] => [[]]
  | skip + 1, _ :: xs => piecesFrom sep skip xs
  | 0, x :: xs =>
    if sep.isPrefixOf (x :: xs) then [] :: piecesFrom sep (sep.length - 1) xs
    else (piecesFrom sep 0 xs).modifyHead (x :: ·)

def pieces (sep xs : List A) : List (List A) := piecesFrom sep 0 xs

theorem piecesFrom_append {sep xs : List A} :
    piecesFrom sep xs.length (xs ++ q) = piecesFrom sep 0 q := by
  induction xs with
  | nil => rfl
  | cons x xs ih => rw [List.length_cons, List.cons_append, piecesFrom, ih]

theorem pieces_first (sep : List A) (hne : sep ≠ []) :
    pieces sep (sep ++ q) = [] :: pieces sep q := by
  cases sep with
  | nil => exact absurd rfl hne
  | cons e m =>
    have hpre : (e :: m).isPrefixOf (e :: (m ++ q)) = true :=
      List.isPrefixOf_iff_prefix.mpr (List.prefix_append (e :: m) q)
    rw [pieces, List.cons_append, piecesFrom, if_pos hpre, List.length_cons, Nat.add_sub_cancel,
      piecesFrom_append, pieces]

theorem pieces_of_not_infix {sep : List A} (hp : ¬sep <:+: p) : pieces sep p = [p] := by
  induction p with
  | nil => rfl
  | cons x p ih =>
    rw [List.infix_cons_iff, not_or] at hp
    have hpre : ¬sep.isPrefixOf (x :: p) = true := fun h => hp.1 (List.isPrefixOf_iff_prefix.mp h)
    rw [pieces, piecesFrom, if_neg hpre, ← pieces, ih hp.2]
    rfl

theorem pieces_append_first {m : List A} (h : e ∉ m) (hp : ¬e :: m <:+: p) :
    pieces (e :: m) (p ++ e :: q) = (pieces (e :: m) (e :: q)).modifyHead (p ++ ·) := by
  induction p with
  | nil => exact (congrFun List.modifyHead_id _).symm
  | cons x p ih =>
    rw [List.infix_cons_iff, not_or] at hp
    have hpre : ¬(e :: m).isPrefixOf (x :: (p ++ e :: q)) = true := by
      intro hpre
      rw [List.isPrefixOf_iff_prefix, List.cons_prefix_cons, prefix_append_cons h,
        ← List.cons_prefix_cons] at hpre
      exact hp.1 hpre
    rw [List.cons_append, pieces, piecesFrom, if_neg hpre, ← pieces, ih hp.2,
      List.modifyHead_modifyHead]
    rfl

/-- What is written with a separator before each part is taken apart into the parts. -/
theorem pieces_flatMap {m : List A} (h : e ∉ m) (hp : ¬e :: m <:+: p) {parts : List (List A)}
    (hparts : ∀ part ∈ parts, ¬e :: m <:+: part) :
    pieces (e :: m) (p ++ parts.flatMap (e :: m ++ ·)) = p :: parts := by
  induction parts generalizing p with
  | nil => rw [List.flatMap_nil, List.append_nil, pieces_of_not_infix hp]
  | cons part parts ih =>
    rw [List.forall_mem_cons] at hparts
    have hhead : pieces (e :: m) (e :: (m ++ (part ++ parts.flatMap (e :: m ++ ·)))) =
        [] :: part :: parts := by
      rw [← ih hparts.1 hparts.2]
      exact pieces_first (e :: m) (List.cons_ne_nil _ _)
    rw [List.flatMap_cons, List.append_assoc, List.cons_append, pieces_append_first h hp, hhead,
      List.modifyHead_cons, List.append_nil]

/-- A tail without a separator goes with the last part. -/
theorem any_pieces_append {m : List A} (h : e ∉ m) (hp : ¬e :: m <:+: p) {parts : List (List A)}
    (hparts : ∀ part ∈ parts, ¬e :: m <:+: part) (hq : ¬e :: m <:+: e :: q) {f : List A → Bool}
    (hf : ∀ part, f (part ++ e :: q) = f part) :
    ((pieces (e :: m) (p ++ parts.flatMap (e :: m ++ ·) ++ e :: q)).drop 1).any f =
      parts.any f := by
  have htail : ∀ {part : List A}, ¬e :: m <:+: part → ¬e :: m <:+: part ++ e :: q :=
    fun hpart hocc => ((infix_append_first h).mp hocc).elim hpart hq
  rcases parts.eq_nil_or_concat with rfl | ⟨parts, last, rfl⟩
  · rw [List.flatMap_nil, List.append_nil, pieces_of_not_infix (htail hp)]
    rfl
  · have hall : ∀ part ∈ parts ++ [last ++ e :: q], ¬e :: m <:+: part := by
      intro part hpart
      rcases List.mem_append.mp hpart with hpart | hpart
      · exact hparts part (by simp [hpart])
      · rw [List.mem_singleton.mp hpart]
        exact htail (hparts last (by simp))
    have hsplit := pieces_flatMap h hp hall
    simp only [List.flatMap_append, List.flatMap_singleton, List.append_assoc,
      List.concat_eq_append] at hsplit ⊢
    rw [hsplit]
    simp [hf]

/-! ## The last occurrence -/

def fromLast (needle : List A) : List A → Option (List A)
  | [] => if needle.isEmpty then some [] else none
  | x :: xs =>
    (fromLast needle xs).orElse fun _ =>
      if needle.isPrefixOf (x :: xs) then some (x :: xs) else none

theorem fromLast_of_not_infix (h : ¬needle <:+: p) : fromLast needle p = none := by
  induction p with
  | nil =>
    have hempty : ¬needle.isEmpty = true := fun hempty =>
      h (List.infix_nil.mpr (List.isEmpty_iff.mp hempty))
    rw [fromLast, if_neg hempty]
  | cons x p ih =>
    rw [List.infix_cons_iff, not_or] at h
    have hpre : ¬needle.isPrefixOf (x :: p) = true := fun hpre =>
      h.1 (List.isPrefixOf_iff_prefix.mp hpre)
    rw [fromLast, ih h.2, if_neg hpre]
    rfl

theorem fromLast_append {m : List A} (hm : e ∉ m) (hq : e ∉ q) :
    fromLast (e :: m) (p ++ e :: (m ++ q)) = some (e :: (m ++ q)) := by
  induction p with
  | nil =>
    have hrest : fromLast (e :: m) (m ++ q) = none :=
      fromLast_of_not_infix (not_infix_of_notMem (by simp [hm, hq]))
    have hpre : (e :: m).isPrefixOf (e :: (m ++ q)) = true :=
      List.isPrefixOf_iff_prefix.mpr (List.prefix_append (e :: m) q)
    rw [List.nil_append, fromLast, hrest, if_pos hpre]
    rfl
  | cons x p ih =>
    rw [List.cons_append, fromLast, ih]
    rfl

end Search
