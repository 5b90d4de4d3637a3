import Mathlib.Tactic

/-!
# Cipher block chaining

Every block is masked with the encrypted block before it and then encrypted. A chain is undone
from its encrypted blocks alone.
-/

namespace Chaining

set_option autoImplicit false

universe u

variable {B : Type u}

section Chain

variable (mask : B → B → B) (encrypt decrypt : B → B)

def chain : B → List B → List B
  | _, [] => []
  | prev, b :: bs =>
    encrypt (mask b prev) :: chain (encrypt (mask b prev)) bs

def unchain : B → List B → List B
  | _, [] => []
  | prev, c :: cs => mask (decrypt c) prev :: unchain c cs

theorem length_unchain (prev : B) (cs : List B) :
    (unchain mask decrypt prev cs).length = cs.length := by
  induction cs generalizing prev with
  | nil => rfl
  | cons c cs ih => rw [unchain, List.length_cons, ih, List.length_cons]

end Chain

variable {mask : B → B → B} {encrypt decrypt : B → B}

theorem unchain_chain (hmask : ∀ b m, mask (mask b m) m = b)
    (hinverse : ∀ b, decrypt (encrypt b) = b) (prev : B) (bs : List B) :
    unchain mask decrypt prev (chain mask encrypt prev bs) = bs := by
  induction bs generalizing prev with
  | nil => rfl
  | cons b bs ih => rw [chain, unchain, hinverse, hmask, ih]

theorem chain_unchain (hmask : ∀ b m, mask (mask b m) m = b)
    (hinverse : ∀ c, encrypt (decrypt c) = c) (prev : B) (cs : List B) :
    chain mask encrypt prev (unchain mask decrypt prev cs) = cs := by
  induction cs generalizing prev with
  | nil => rfl
  | cons c cs ih => rw [unchain, chain, hmask, hinverse, ih]

/-- On finitely many blocks, what undoes the encryption is undone by it. -/
theorem encrypt_decrypt [Finite B] (hinverse : ∀ b, decrypt (encrypt b) = b) (c : B) :
    encrypt (decrypt c) = c := by
  have hleft : Function.LeftInverse decrypt encrypt := hinverse
  exact hleft.rightInverse_of_surjective (Finite.surjective_of_injective hleft.injective) c

end Chaining
