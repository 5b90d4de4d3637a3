import OpenAirplay.Wire
import OpenAirplay.Shared.SerialNumber

/-!
# The sequence-ordered jitter buffer

A ring of `capacity` slots keyed by the 16-bit RTP sequence number. The buffer never
looks inside a frame, so the frame type is a variable.
-/

namespace OpenAirplay.Jitter

set_option autoImplicit false

/-- Capacity in packets. -/
def capacity : Nat := 512

/-- Lead at which the buffer gives up on a missing packet. -/
def maxLead : Nat := 128

def seqDiff (a b : U16) : Int := SerialNumber.diff a b

variable {F : Type}

/-- What `popReady` hands to the player, in order. -/
inductive Delivery (F : Type) where
  | packet (seq : U16) (frame : F)
  | lost (seq : U16)
  deriving DecidableEq, Repr

def Delivery.seq : Delivery F → U16
  | .packet s _ => s
  | .lost s => s

def Delivery.frame? : Delivery F → Option F
  | .packet _ f => some f
  | .lost _ => none

def Delivery.map {G : Type} (f : F → G) : Delivery F → Delivery G
  | .packet s x => .packet s (f x)
  | .lost s => .lost s

structure JitterBuffer (F : Type) where
  slots : Vector (Option F) capacity
  nextSeq : Option U16
  highestSeq : Option U16
  maxLead : Nat
  /-- The constructor's assertion. -/
  maxLead_lt : maxLead < capacity

def slot (seq : U16) : Fin capacity := ⟨seq.toNat % capacity, Nat.mod_lt _ (by decide)⟩

namespace JitterBuffer

def new (maxLead : Nat) (h : maxLead < capacity) : JitterBuffer F where
  slots := .replicate capacity none
  nextSeq := none
  highestSeq := none
  maxLead := maxLead
  maxLead_lt := h

def default : JitterBuffer F := new Jitter.maxLead (by decide)

def reset (jb : JitterBuffer F) (nextSeq : Option U16) : JitterBuffer F :=
  { jb with slots := .replicate capacity none, nextSeq := nextSeq, highestSeq := none }

def lookup (jb : JitterBuffer F) (seq : U16) : Option F := jb.slots[slot seq]

def store (jb : JitterBuffer F) (seq : U16) (frame : Option F) : JitterBuffer F :=
  { jb with slots := jb.slots.set (slot seq) frame }

def insert (jb : JitterBuffer F) (seq : U16) (frame : F) : JitterBuffer F :=
  let next := jb.nextSeq.getD seq
  let jb := { jb with nextSeq := some next }
  let ahead := seqDiff seq next
  if ahead < 0 ∨ (capacity : Int) ≤ ahead then jb
  else
    let jb := jb.store seq (some frame)
    if jb.highestSeq.all fun h => 0 < seqDiff seq h then { jb with highestSeq := some seq } else jb

/-- One turn of the loop in `popReady`; `none` is its `break`. -/
def popStep (jb : JitterBuffer F) (highest : U16) : Option (Delivery F × JitterBuffer F) :=
  match jb.nextSeq with
  | none => none
  | some next =>
    match jb.lookup next with
    | some frame =>
      some (.packet next frame, { jb.store next none with nextSeq := some (next + 1) })
    | none =>
      if (jb.maxLead : Int) ≤ seqDiff highest next then
        some (.lost next, { jb with nextSeq := some (next + 1) })
      else none

def popLoop (highest : U16) : Nat → JitterBuffer F → List (Delivery F) × JitterBuffer F
  | 0, jb => ([], jb)
  | fuel + 1, jb =>
    match jb.popStep highest with
    | none => ([], jb)
    | some (d, jb') =>
      let (out, jb'') := popLoop highest fuel jb'
      (d :: out, jb'')

/-- One circle of sequence numbers is more turns than the loop can take. -/
def popReady (jb : JitterBuffer F) : List (Delivery F) × JitterBuffer F :=
  match jb.highestSeq with
  | none => ([], jb)
  | some highest => popLoop highest (2 ^ 16) jb

def missingLoop (jb : JitterBuffer F) (highest : U16) : Nat → U16 → List U16
  | 0, _ => []
  | fuel + 1, seq =>
    if 0 ≤ seqDiff highest seq then
      if (jb.lookup seq).isNone then seq :: jb.missingLoop highest fuel (seq + 1)
      else jb.missingLoop highest fuel (seq + 1)
    else []

/-- Missing sequence numbers from the next to deliver to the highest received. -/
def missing (jb : JitterBuffer F) : List U16 :=
  match jb.nextSeq, jb.highestSeq with
  | some next, some highest => jb.missingLoop highest (2 ^ 16) next
  | _, _ => []

/-- `insert` keeps the frame: the packet is neither late nor beyond one ring of lead. -/
def Accepts (jb : JitterBuffer F) (seq : U16) : Prop :=
  0 ≤ seqDiff seq (jb.nextSeq.getD seq) ∧ seqDiff seq (jb.nextSeq.getD seq) < capacity

instance (jb : JitterBuffer F) (seq : U16) : Decidable (jb.Accepts seq) :=
  inferInstanceAs (Decidable (_ ∧ _))

theorem lookup_store (jb : JitterBuffer F) (seq s : U16) (f : Option F) :
    (jb.store seq f).lookup s = if slot seq = slot s then f else jb.lookup s := by
  simp only [lookup, store, Fin.getElem_fin, Vector.getElem_set, Fin.ext_iff]

@[simp] theorem lookup_reset (jb : JitterBuffer F) (n : Option U16) (s : U16) :
    (jb.reset n).lookup s = none := by
  simp [lookup, reset]

@[simp] theorem lookup_new (lead : Nat) (h : lead < capacity) (s : U16) :
    (new lead h : JitterBuffer F).lookup s = none := by
  simp [lookup, new]

@[simp] theorem insert_maxLead (jb : JitterBuffer F) (seq : U16) (f : F) :
    (jb.insert seq f).maxLead = jb.maxLead := by
  simp only [insert]
  split
  · rfl
  · split <;> rfl

theorem insert_of_not_accepts {jb : JitterBuffer F} {seq : U16} (h : ¬jb.Accepts seq) (f : F) :
    jb.insert seq f = { jb with nextSeq := some (jb.nextSeq.getD seq) } := by
  unfold insert
  rw [if_pos]
  simp only [Accepts, not_and_or, not_le, not_lt] at h
  exact h

theorem insert_of_accepts {jb : JitterBuffer F} {seq : U16} (h : jb.Accepts seq) (f : F) :
    jb.insert seq f =
      { jb.store seq (some f) with
        nextSeq := some (jb.nextSeq.getD seq)
        highestSeq := if jb.highestSeq.all fun h => 0 < seqDiff seq h then some seq
          else jb.highestSeq } := by
  unfold insert
  rw [if_neg]
  · split <;> simp_all [store]
  · simp only [Accepts] at h
    omega

theorem accepts_of_nextSeq_none {jb : JitterBuffer F} (h : jb.nextSeq = none) (seq : U16) :
    jb.Accepts seq := by
  simp [Accepts, h, seqDiff, capacity]

theorem popStep_eq_some {jb jb' : JitterBuffer F} {highest : U16} {d : Delivery F}
    (h : jb.popStep highest = some (d, jb')) :
    ∃ next, jb.nextSeq = some next ∧
      ((∃ f, jb.lookup next = some f ∧ d = .packet next f ∧
          jb' = { jb.store next none with nextSeq := some (next + 1) }) ∨
        (jb.lookup next = none ∧ (jb.maxLead : Int) ≤ seqDiff highest next ∧ d = .lost next ∧
          jb' = { jb with nextSeq := some (next + 1) })) := by
  unfold popStep at h
  split at h
  · cases h
  · rename_i next hnext
    refine ⟨next, hnext, ?_⟩
    split at h
    · rename_i f hf
      cases h
      exact .inl ⟨f, hf, rfl, rfl⟩
    · rename_i hf
      split at h
      · rename_i hlead
        cases h
        exact .inr ⟨hf, hlead, rfl, rfl⟩
      · cases h

theorem popStep_maxLead {jb jb' : JitterBuffer F} {highest : U16} {d : Delivery F}
    (h : jb.popStep highest = some (d, jb')) : jb'.maxLead = jb.maxLead := by
  obtain ⟨next, _, ⟨f, _, _, rfl⟩ | ⟨_, _, _, rfl⟩⟩ := popStep_eq_some h <;> rfl

theorem popLoop_maxLead (highest : U16) (fuel : Nat) (jb : JitterBuffer F) :
    (jb.popLoop highest fuel).2.maxLead = jb.maxLead := by
  induction fuel generalizing jb with
  | zero => rfl
  | succ fuel ih =>
    cases hstep : jb.popStep highest with
    | none => simp [popLoop, hstep]
    | some r => simpa [popLoop, hstep, popStep_maxLead hstep] using ih r.2

@[simp] theorem popReady_maxLead (jb : JitterBuffer F) : jb.popReady.2.maxLead = jb.maxLead := by
  unfold popReady
  split
  · rfl
  · exact popLoop_maxLead _ _ _

theorem insert_nextSeq (jb : JitterBuffer F) (seq : U16) (f : F) :
    (jb.insert seq f).nextSeq = some (jb.nextSeq.getD seq) := by
  by_cases h : jb.Accepts seq
  · rw [insert_of_accepts h]
  · rw [insert_of_not_accepts h]

theorem popStep_eq_none_iff {jb : JitterBuffer F} {highest next : U16}
    (hnext : jb.nextSeq = some next) :
    jb.popStep highest = none ↔
      jb.lookup next = none ∧ seqDiff highest next < jb.maxLead := by
  simp only [popStep, hnext]
  cases jb.lookup next <;> simp

section Map

variable {G : Type} (f : F → G)

def map (jb : JitterBuffer F) : JitterBuffer G where
  slots := jb.slots.map (Option.map f)
  nextSeq := jb.nextSeq
  highestSeq := jb.highestSeq
  maxLead := jb.maxLead
  maxLead_lt := jb.maxLead_lt

@[simp] theorem map_nextSeq (jb : JitterBuffer F) : (jb.map f).nextSeq = jb.nextSeq := rfl

@[simp] theorem map_highestSeq (jb : JitterBuffer F) :
    (jb.map f).highestSeq = jb.highestSeq := rfl

@[simp] theorem lookup_map (jb : JitterBuffer F) (seq : U16) :
    (jb.map f).lookup seq = (jb.lookup seq).map f := by
  simp [lookup, map]

theorem store_map (jb : JitterBuffer F) (seq : U16) (x : Option F) :
    (jb.map f).store seq (x.map f) = (jb.store seq x).map f := by
  simp [store, map]

theorem accepts_map {jb : JitterBuffer F} {seq : U16} :
    (jb.map f).Accepts seq ↔ jb.Accepts seq := Iff.rfl

@[simp] theorem reset_map (jb : JitterBuffer F) (n : Option U16) :
    (jb.reset n).map f = (jb.map f).reset n := by
  simp [reset, map]

theorem insert_map (jb : JitterBuffer F) (seq : U16) (x : F) :
    (jb.map f).insert seq (f x) = (jb.insert seq x).map f := by
  by_cases h : jb.Accepts seq
  · rw [insert_of_accepts h, insert_of_accepts ((accepts_map f).mpr h)]
    have hstore : (jb.map f).store seq (some (f x)) = (jb.store seq (some x)).map f :=
      store_map f jb seq (some x)
    rw [hstore]
    rfl
  · rw [insert_of_not_accepts h, insert_of_not_accepts (mt (accepts_map f).mp h)]
    rfl

theorem popStep_map (jb : JitterBuffer F) (highest : U16) :
    (jb.map f).popStep highest =
      (jb.popStep highest).map fun r => (r.1.map f, r.2.map f) := by
  cases hnext : jb.nextSeq with
  | none => simp [popStep, hnext]
  | some next =>
    cases hl : jb.lookup next with
    | some frame =>
      have hstore : (jb.map f).store next none = (jb.store next none).map f :=
        store_map f jb next none
      simp only [popStep, map_nextSeq, lookup_map, hnext, hl, Option.map_some, hstore]
      rfl
    | none =>
      simp only [popStep, map_nextSeq, lookup_map, hnext, hl, Option.map_none]
      by_cases hlead : (jb.maxLead : Int) ≤ seqDiff highest next
      · rw [if_pos hlead, if_pos (by exact hlead)]
        rfl
      · rw [if_neg hlead, if_neg (by exact hlead)]
        rfl

theorem popLoop_map (highest : U16) (fuel : Nat) (jb : JitterBuffer F) :
    (jb.map f).popLoop highest fuel =
      ((jb.popLoop highest fuel).1.map (Delivery.map f), (jb.popLoop highest fuel).2.map f) := by
  induction fuel generalizing jb with
  | zero => rfl
  | succ fuel ih =>
    simp only [popLoop, popStep_map]
    cases jb.popStep highest with
    | none => rfl
    | some r => simp [ih]

theorem popReady_map (jb : JitterBuffer F) :
    (jb.map f).popReady = (jb.popReady.1.map (Delivery.map f), jb.popReady.2.map f) := by
  simp only [popReady, map_highestSeq]
  cases jb.highestSeq with
  | none => rfl
  | some highest => exact popLoop_map f highest (2 ^ 16) jb

end Map

end JitterBuffer

theorem slot_place (base : U16) (i : Nat) :
    (slot (SerialNumber.place base i)).val = (base.toNat + i) % capacity := by
  simp only [slot, SerialNumber.place_toNat, capacity]
  omega

theorem slot_place_inj {base : U16} {n i j : Nat} (hi : n ≤ i ∧ i < n + capacity)
    (hj : n ≤ j ∧ j < n + capacity)
    (h : slot (SerialNumber.place base i) = slot (SerialNumber.place base j)) : i = j := by
  have hval := congrArg Fin.val h
  simp only [slot_place, capacity] at hval hi hj
  omega

theorem slot_place_wrap (base : U16) (n : Nat) :
    slot (SerialNumber.place base (n + capacity)) = slot (SerialNumber.place base n) := by
  apply Fin.ext
  simp only [slot_place, capacity]
  omega

end OpenAirplay.Jitter
