import Mathlib.Tactic

/-!
# A bounded broadcast channel

A channel keeps the latest `capacity` messages for readers that each go on at their own
place. A reader that fell further behind is moved to the oldest message kept.
-/

namespace Broadcast

set_option autoImplicit false

universe u

variable {M : Type u} {capacity : Nat} {sent : List M} {cursor cursor' : Nat}

inductive Received (M : Type u) where
  | message (m : M)
  | lagged (missed : Nat)
  deriving DecidableEq

/-- What a reader at `cursor` gets and where it goes on; nothing at the end of the channel. -/
def recv (capacity : Nat) (sent : List M) (cursor : Nat) : Option (Received M × Nat) :=
  if cursor < sent.length - capacity then
    some (.lagged (sent.length - capacity - cursor), sent.length - capacity)
  else (sent[cursor]?).map fun m => (.message m, cursor + 1)

theorem recv_message {m : M} (h : recv capacity sent cursor = some (.message m, cursor')) :
    sent.drop cursor = m :: sent.drop cursor' ∧ cursor' ≤ sent.length := by
  unfold recv at h
  split at h
  · cases h
  · obtain ⟨m', hm, heq⟩ := Option.map_eq_some_iff.mp h
    cases heq
    obtain ⟨hlt, rfl⟩ := List.getElem?_eq_some_iff.mp hm
    exact ⟨List.drop_eq_getElem_cons hlt, hlt⟩

/-- A reader that fell behind skips some messages and loses no later one. -/
theorem recv_lagged {missed : Nat}
    (h : recv capacity sent cursor = some (.lagged missed, cursor')) :
    (∃ skipped, sent.drop cursor = skipped ++ sent.drop cursor') ∧ cursor' ≤ sent.length := by
  unfold recv at h
  split at h
  · rename_i hlt
    cases h
    refine ⟨⟨(sent.drop cursor).take (sent.length - capacity - cursor), ?_⟩, by omega⟩
    have hdrop : sent.drop (sent.length - capacity) =
        (sent.drop cursor).drop (sent.length - capacity - cursor) := by
      rw [List.drop_drop]
      congr 1
      omega
    rw [hdrop, List.take_append_drop]
  · obtain ⟨m', hm, heq⟩ := Option.map_eq_some_iff.mp h
    cases heq

theorem recv_none (h : recv capacity sent cursor = none) : sent.drop cursor = [] := by
  unfold recv at h
  split at h
  · cases h
  · have hend := List.getElem?_eq_none_iff.mp (Option.map_eq_none_iff.mp h)
    exact List.drop_eq_nil_of_le hend

end Broadcast
