import OpenAirplay.Dmap
import OpenAirplay.Shared.Register
import OpenAirplay.Shared.Stream

/-!
# What DMAP metadata is read back as

A body is a list of entries that may end in one cut short, and so is the payload of a
container. Every body is read as its entries; of a track, the last one of each kind counts.
-/

namespace OpenAirplay.Dmap

open Register Stream Text

set_option autoImplicit false

/-! ## One entry after another -/

/-- The length the first entry declares. -/
def declared (data : Bytes) : Nat :=
  (u32FromBe (data.getD 4 0) (data.getD 5 0) (data.getD 6 0) (data.getD 7 0)).toNat

/-- The first entry and what follows it. -/
def next (data : Bytes) : Option ((Bytes × Bytes) × Bytes) :=
  if data.length < 8 then none
  else if (data.drop 8).length < declared data then none
  else
    some ((data.take 4, (data.drop 8).take (declared data)), (data.drop 8).drop (declared data))

/-- The length is a variable here: in terms of its bytes it is too large to compute with. -/
theorem walk_long (n : Nat) {data : Bytes} {len : Nat} (hlong : ¬data.length < 8)
    (hlen : declared data = len) :
    walk (n + 1) data =
      if (data.drop 8).length < len then []
      else (data.take 4, (data.drop 8).take len) :: walk n ((data.drop 8).drop len) := by
  unfold declared at hlen
  rw [walk, if_neg hlong]
  dsimp only
  rw [hlen]

theorem next_long {data : Bytes} {len : Nat} (hlong : ¬data.length < 8)
    (hlen : declared data = len) :
    next data =
      if (data.drop 8).length < len then none
      else some ((data.take 4, (data.drop 8).take len), (data.drop 8).drop len) := by
  rw [next, if_neg hlong, hlen]

theorem walk_eq (n : Nat) (data : Bytes) : walk n data = (many next n data).1 := by
  induction n generalizing data with
  | zero => rfl
  | succ n ih =>
    by_cases hshort : data.length < 8
    · rw [walk, if_pos hshort, many_of_none (if_pos hshort)]
    · obtain ⟨len, hlen⟩ : ∃ len, declared data = len := ⟨_, rfl⟩
      have hnext := next_long hshort hlen
      rw [walk_long n hshort hlen]
      by_cases htruncated : (data.drop 8).length < len
      · rw [if_pos htruncated] at hnext ⊢
        rw [many_of_none hnext]
      · rw [if_neg htruncated] at hnext ⊢
        rw [many_of_some hnext, ih]

theorem takes_next : Takes next 8 := by
  intro data entry rest h
  by_cases hshort : data.length < 8
  · rw [next, if_pos hshort] at h
    cases h
  · obtain ⟨len, hlen⟩ : ∃ len, declared data = len := ⟨_, rfl⟩
    rw [next_long hshort hlen] at h
    by_cases htruncated : (data.drop 8).length < len
    · rw [if_pos htruncated] at h
      cases h
    · rw [if_neg htruncated] at h
      cases h
      rw [List.length_drop, List.length_drop]
      omega

theorem entries_eq (data : Bytes) : entries data = (many next (data.length / 8) data).1 := by
  rw [entries, walk_eq, takes_next.many_eq (by decide) (Nat.div_le_self _ _) le_rfl]

/-! ## Every slice checked -/

/-- `data[i..j]`; out of bounds it panics. -/
def slice (data : Bytes) (i j : Nat) : Option Bytes :=
  if i ≤ j ∧ j ≤ data.length then some ((data.drop i).take (j - i)) else none

/-- A big-endian `u32`, as a length. -/
def lengthOf (digits : Bytes) : Nat :=
  (u32FromBe (digits.getD 0 0) (digits.getD 1 0) (digits.getD 2 0) (digits.getD 3 0)).toNat

/-- The walk in at most so many turns of its loop; nothing when one of its slices panics or
there is more to do. -/
def checkedWalk : Nat → Bytes → Option (List (Bytes × Bytes))
  | 0, data => if data.length < 8 then some [] else none
  | turns + 1, data =>
    if data.length < 8 then some []
    else do
      let tag ← slice data 0 4
      let digits ← slice data 4 8
      let rest ← slice data 8 data.length
      if rest.length < lengthOf digits then some []
      else do
        let payload ← slice rest 0 (lengthOf digits)
        let data' ← slice rest (lengthOf digits) rest.length
        let more ← checkedWalk turns data'
        return (tag, payload) :: more

theorem slice_of_le {data : Bytes} {i j : Nat} (hij : i ≤ j) (hj : j ≤ data.length) :
    slice data i j = some ((data.drop i).take (j - i)) := if_pos ⟨hij, hj⟩

theorem slice_from {data : Bytes} {i : Nat} (hi : i ≤ data.length) :
    slice data i data.length = some (data.drop i) := by
  rw [slice_of_le hi le_rfl, ← List.length_drop, List.take_length]

theorem lengthOf_slice (data : Bytes) : lengthOf ((data.drop 4).take 4) = declared data := by
  have hdigit : ∀ k < 4, ((data.drop 4).take 4).getD k 0 = data.getD (4 + k) 0 := by
    intro k hk
    simp [List.getD_eq_getElem?_getD, List.getElem?_take_of_lt hk]
  rw [lengthOf, declared, hdigit 0 (by decide), hdigit 1 (by decide), hdigit 2 (by decide),
    hdigit 3 (by decide)]

theorem checkedWalk_long (turns : Nat) {data : Bytes} {len : Nat} (hlong : ¬data.length < 8)
    (hlen : declared data = len) :
    checkedWalk (turns + 1) data =
      if (data.drop 8).length < len then some []
      else (checkedWalk turns ((data.drop 8).drop len)).map
        ((data.take 4, (data.drop 8).take len) :: ·) := by
  have htag : slice data 0 4 = some (data.take 4) := slice_of_le (Nat.zero_le 4) (by omega)
  have hdigits : slice data 4 8 = some ((data.drop 4).take 4) :=
    slice_of_le (by decide) (by omega)
  have hrest : slice data 8 data.length = some (data.drop 8) := slice_from (by omega)
  rw [checkedWalk, if_neg hlong, htag, Option.bind_eq_bind, Option.bind_some, hdigits,
    Option.bind_some, hrest, Option.bind_some, lengthOf_slice, hlen]
  by_cases htruncated : (data.drop 8).length < len
  · rw [if_pos htruncated, if_pos htruncated]
  · have hpayload : slice (data.drop 8) 0 len = some ((data.drop 8).take len) :=
      slice_of_le (Nat.zero_le len) (by omega)
    have hmore : slice (data.drop 8) len (data.drop 8).length = some ((data.drop 8).drop len) :=
      slice_from (by omega)
    rw [if_neg htruncated, if_neg htruncated, hpayload, hmore, Option.bind_some, Option.bind_some]
    cases checkedWalk turns ((data.drop 8).drop len) <;> rfl

theorem checkedWalk_eq (turns : Nat) (data : Bytes) (h : data.length / 8 ≤ turns) :
    checkedWalk turns data = some (walk turns data) := by
  induction turns generalizing data with
  | zero =>
    have hshort : data.length < 8 := by omega
    rw [checkedWalk, if_pos hshort, walk]
  | succ turns ih =>
    by_cases hshort : data.length < 8
    · rw [checkedWalk, if_pos hshort, walk, if_pos hshort]
    · obtain ⟨len, hlen⟩ : ∃ len, declared data = len := ⟨_, rfl⟩
      have hmore := ih ((data.drop 8).drop len) (by
        rw [List.length_drop, List.length_drop]
        omega)
      rw [checkedWalk_long turns hshort hlen, walk_long turns hshort hlen, hmore]
      split <;> rfl

/-! ## Bodies -/

structure Entry where
  tag : Bytes
  payload : Bytes
  tag_length : tag.length = 4
  payload_lt : payload.length < 2 ^ 32

def Entry.encode (e : Entry) : Bytes :=
  e.tag ++ u32ToBe (BitVec.ofNat 32 e.payload.length) ++ e.payload

/-- What ends the entries: fewer than eight bytes, or an entry cut short. -/
inductive Stray : Bytes → Prop where
  | short {bytes : Bytes} (h : bytes.length < 8) : Stray bytes
  | truncated {tag payload : Bytes} {len : U32} (htag : tag.length = 4)
      (h : payload.length < len.toNat) : Stray (tag ++ u32ToBe len ++ payload)

/-- The entries of one level and what ends them. -/
structure Level where
  entries : List Entry
  tail : Bytes
  ends : Stray tail

def Level.encode (l : Level) : Bytes := l.entries.flatMap Entry.encode ++ l.tail

/-- An entry of the top level: a container has a level of its own for a payload. -/
inductive Item where
  | other (e : Entry) (h : e.tag ≠ mlit)
  | container (l : Level) (h : l.encode.length < 2 ^ 32)

def Item.entry : Item → Entry
  | .other e _ => e
  | .container l h => ⟨mlit, l.encode, rfl, h⟩

def Item.children : Item → List Entry
  | .other _ _ => []
  | .container l _ => l.entries

def Item.isContainer : Item → Bool
  | .other _ _ => false
  | .container _ _ => true

structure Body where
  items : List Item
  tail : Bytes
  ends : Stray tail

namespace Body

def level (b : Body) : Level := ⟨b.items.map Item.entry, b.tail, b.ends⟩

def encode (b : Body) : Bytes := b.level.encode

/-- The entries of all its containers, in order. -/
def children (b : Body) : List Entry := b.items.flatMap Item.children

end Body

/-- The last entry of this kind. -/
def lastOf (tag : Bytes) (children : List Entry) : Option String :=
  ((children.filter fun e => e.tag = tag).getLast?).map fun e => fromUtf8Lossy e.payload

/-! ## What they are read as -/

theorem header_length {tag : Bytes} (htag : tag.length = 4) (len : U32) :
    (tag ++ u32ToBe len).length = 8 := by
  rw [List.length_append, htag]
  rfl

theorem declared_append {tag : Bytes} (htag : tag.length = 4) (len : U32) (rest : Bytes) :
    declared (tag ++ u32ToBe len ++ rest) = len.toNat := by
  have hdigit : ∀ k < 4, (tag ++ u32ToBe len ++ rest).getD (4 + k) 0 = (u32ToBe len).getD k 0 := by
    intro k hk
    have hk' : 4 + k - tag.length < (u32ToBe len).length := by
      rw [htag, Nat.add_sub_cancel_left]
      exact hk
    rw [List.getD_eq_getElem?_getD, List.append_assoc, List.getElem?_append_right (by omega),
      List.getElem?_append_left hk', htag, Nat.add_sub_cancel_left, List.getD_eq_getElem?_getD]
  rw [declared, hdigit 0 (by decide), hdigit 1 (by decide), hdigit 2 (by decide),
    hdigit 3 (by decide)]
  exact congrArg BitVec.toNat (u32FromBe_toBe len)

theorem next_encode (e : Entry) (rest : Bytes) :
    next (e.encode ++ rest) = some ((e.tag, e.payload), rest) := by
  have hheader := header_length e.tag_length (BitVec.ofNat 32 e.payload.length)
  have hlen : declared (e.encode ++ rest) = e.payload.length := by
    rw [Entry.encode, List.append_assoc, declared_append e.tag_length, BitVec.toNat_ofNat,
      Nat.mod_eq_of_lt e.payload_lt]
  have hdrop : (e.encode ++ rest).drop 8 = e.payload ++ rest := by
    rw [Entry.encode, List.append_assoc, List.drop_left' hheader]
  have htake : (e.encode ++ rest).take 4 = e.tag := by
    rw [Entry.encode, List.append_assoc, List.append_assoc, List.take_left' e.tag_length]
  have hlong : ¬(e.encode ++ rest).length < 8 := by
    rw [Entry.encode, List.append_assoc, List.length_append, hheader]
    omega
  rw [next_long hlong hlen, hdrop, htake, List.take_left, List.drop_left,
    if_neg (by rw [List.length_append]; omega)]

theorem next_stray {tail : Bytes} (h : Stray tail) : next tail = none := by
  cases h with
  | short h => exact if_pos h
  | @truncated tag payload len htag h =>
    have hheader := header_length htag len
    have hlong : ¬(tag ++ u32ToBe len ++ payload).length < 8 := by
      rw [List.length_append, hheader]
      omega
    rw [next_long hlong (declared_append htag len payload), List.drop_left' hheader, if_pos h]

theorem entries_encode (l : Level) :
    entries l.encode = l.entries.map fun e => (e.tag, e.payload) := by
  have hwrite : ∀ e ∈ l.entries, ∀ rest, next (e.encode ++ rest) = some ((e.tag, e.payload), rest) :=
    fun e _ => next_encode e
  rw [entries_eq, Level.encode,
    takes_next.many_append (by decide) hwrite (next_stray l.ends) le_rfl]

theorem exists_u32ToBe {data : Bytes} (hlong : ¬data.length < 8) :
    ∃ len : U32, u32ToBe len = (data.drop 4).take 4 := by
  refine ⟨u32FromBe (data.getD 4 0) (data.getD 5 0) (data.getD 6 0) (data.getD 7 0), ?_⟩
  rw [u32ToBe_fromBe, List.drop_eq_getElem_cons (by omega : 4 < data.length),
    List.drop_eq_getElem_cons (by omega : 5 < data.length),
    List.drop_eq_getElem_cons (by omega : 6 < data.length),
    List.drop_eq_getElem_cons (by omega : 7 < data.length)]
  simp only [List.getD_eq_getElem?_getD, List.take_succ_cons, List.take_zero]
  rw [List.getElem?_eq_getElem (by omega : 4 < data.length),
    List.getElem?_eq_getElem (by omega : 5 < data.length),
    List.getElem?_eq_getElem (by omega : 6 < data.length),
    List.getElem?_eq_getElem (by omega : 7 < data.length)]
  rfl

/-- There are no other bytes than those of entries and of what ends them. -/
theorem exists_level (data : Bytes) : ∃ l : Level, l.encode = data := by
  induction hn : data.length using Nat.strong_induction_on generalizing data with
  | _ n ih =>
    by_cases hshort : data.length < 8
    · exact ⟨⟨[], data, .short hshort⟩, rfl⟩
    · obtain ⟨len, hbytes⟩ := exists_u32ToBe hshort
      have htag : (data.take 4).length = 4 := List.length_take_of_le (by omega)
      have hdata : data.take 4 ++ u32ToBe len ++ data.drop 8 = data := by
        rw [hbytes, List.append_assoc, ← List.drop_drop (i := 4) (j := 4), List.take_append_drop,
          List.take_append_drop]
      by_cases htruncated : (data.drop 8).length < len.toNat
      · refine ⟨⟨[], data, ?_⟩, rfl⟩
        rw [← hdata]
        exact .truncated htag htruncated
      · obtain ⟨l, hl⟩ := ih ((data.drop 8).drop len.toNat).length (by
          rw [List.length_drop, List.length_drop]
          omega) _ rfl
        have hpayload : ((data.drop 8).take len.toNat).length = len.toNat :=
          List.length_take_of_le (Nat.le_of_not_lt htruncated)
        let e : Entry := ⟨data.take 4, (data.drop 8).take len.toNat, htag, by
          rw [hpayload]
          exact len.isLt⟩
        have he : e.encode = data.take 4 ++ u32ToBe len ++ (data.drop 8).take len.toNat := by
          rw [Entry.encode, hpayload, BitVec.ofNat_toNat, BitVec.setWidth_eq]
        refine ⟨⟨e :: l.entries, l.tail, l.ends⟩, ?_⟩
        rw [Level.encode, List.flatMap_cons, List.append_assoc]
        change e.encode ++ l.encode = data
        rw [he, hl, List.append_assoc, List.take_append_drop, hdata]

theorem exists_body (data : Bytes) : ∃ b : Body, b.encode = data := by
  obtain ⟨l, rfl⟩ := exists_level data
  have hitem : ∀ e : Entry, ∃ i : Item, i.entry = e := by
    intro e
    by_cases h : e.tag = mlit
    · obtain ⟨tag, payload, htag, hpayload⟩ := e
      obtain ⟨inner, rfl⟩ := exists_level payload
      obtain rfl : tag = mlit := h
      exact ⟨.container inner hpayload, rfl⟩
    · exact ⟨.other e h, rfl⟩
  choose item hitem using hitem
  refine ⟨⟨l.entries.map item, l.tail, l.ends⟩, ?_⟩
  simp [Body.encode, Body.level, Function.comp_def, hitem]

/-! ## The track -/

/-- What an entry says about the field of this kind. -/
def said (tag : Bytes) (e : Entry) : Option (Option String) :=
  if e.tag = tag then some (some (fromUtf8Lossy e.payload)) else none

theorem fold_field (m : TrackMetadata) (children : List Entry) :
    (children.map fun e => (e.tag, e.payload)).foldl TrackMetadata.field m =
      ⟨after (said minm) m.title children, after (said asar) m.artist children,
        after (said asal) m.album children⟩ := by
  induction children generalizing m with
  | nil => rfl
  | cons e children ih =>
    have hartist : minm ≠ asar := by decide
    have halbum : minm ≠ asal := by decide
    have hboth : asar ≠ asal := by decide
    have hfield : m.field (e.tag, e.payload) =
        ⟨(said minm e).getD m.title, (said asar e).getD m.artist, (said asal e).getD m.album⟩ := by
      unfold TrackMetadata.field said
      by_cases hminm : e.tag = minm
      · simp [hminm, hartist, halbum]
      · by_cases hasar : e.tag = asar
        · simp [hasar, hartist.symm, hboth]
        · by_cases hasal : e.tag = asal
          · simp [hasal, halbum.symm, hboth.symm]
          · simp [hminm, hasar, hasal]
    rw [List.map_cons, List.foldl_cons, ih, hfield]
    rfl

theorem fold_container (found : Option TrackMetadata) (items : List Item) :
    (items.map fun i => (i.entry.tag, i.entry.payload)).foldl container found =
      if items.any Item.isContainer then
        some (((items.flatMap Item.children).map fun e => (e.tag, e.payload)).foldl
          TrackMetadata.field (found.getD {}))
      else found := by
  induction items generalizing found with
  | nil => rfl
  | cons i items ih =>
    rw [List.map_cons, List.foldl_cons, ih]
    cases i with
    | other e h =>
      have hkept : container found (e.tag, e.payload) = found := if_neg h
      simp only [Item.entry, hkept, List.any_cons, Item.isContainer, Bool.false_or,
        List.flatMap_cons, Item.children, List.nil_append]
    | container l h =>
      have hread : container found (mlit, l.encode) =
          some ((l.entries.map fun e => (e.tag, e.payload)).foldl TrackMetadata.field
            (found.getD {})) := by
        rw [container, if_pos rfl, entries_encode]
      simp only [Item.entry, hread, List.any_cons, Item.isContainer, Bool.true_or, if_true,
        List.flatMap_cons, Item.children, List.map_append, List.foldl_append, Option.getD_some]
      split
      · rfl
      · rename_i hnone
        have hlast : items.flatMap Item.children = [] := by
          apply List.flatMap_eq_nil_iff.mpr
          intro i hi
          cases i with
          | other e h => rfl
          | container l h => exact absurd (List.any_eq_true.mpr ⟨_, hi, rfl⟩) hnone
        rw [hlast]
        rfl

theorem parse_encode (b : Body) :
    parse b.encode =
      if b.items.any Item.isContainer then
        some ⟨lastOf minm b.children, lastOf asar b.children, lastOf asal b.children⟩
      else none := by
  have hlast : ∀ tag, after (said tag) none b.children = lastOf tag b.children := fun tag =>
    after_eq_getLast? (fun e : Entry => e.tag = tag) (fun e => fromUtf8Lossy e.payload) b.children
  have hread := fold_container none b.items
  rw [fold_field, Option.getD_none] at hread
  rw [parse, Body.encode, entries_encode, Body.level, List.map_map]
  change (b.items.map fun i => (i.entry.tag, i.entry.payload)).foldl container none = _
  rw [hread, ← hlast, ← hlast, ← hlast]
  rfl

/-- Of a body with containers, the last entry of each kind in any of them is read back, and
nothing of one without; over any bytes each walk is short and stays inside them. -/
theorem metadata_read_back (b : Body) :
    (parse b.encode = none ↔ ∀ i ∈ b.items, i.isContainer = false) ∧
      (∀ m, parse b.encode = some m →
        m = ⟨lastOf minm b.children, lastOf asar b.children, lastOf asal b.children⟩) ∧
      ∀ data, checkedWalk (data.length / 8) data = some (entries data) := by
  rw [parse_encode]
  refine ⟨?_, ?_, ?_⟩
  · have hnone : b.items.any Item.isContainer = false ↔
        ∀ i ∈ b.items, i.isContainer = false := by simp
    rw [← hnone]
    cases b.items.any Item.isContainer <;> simp
  · intro m h
    split at h
    · exact (Option.some.inj h).symm
    · cases h
  · intro data
    rw [checkedWalk_eq _ data le_rfl, entries, walk_eq, walk_eq,
      takes_next.many_eq (by decide) le_rfl (Nat.div_le_self data.length 8)]

/-- A container with two titles, the second of them last but for an album cut short. -/
def retitled : Level where
  entries := [⟨minm, [0x41], rfl, by decide⟩, ⟨asar, [], rfl, by decide⟩,
    ⟨minm, [0x42], rfl, by decide⟩]
  tail := asal ++ u32ToBe 100 ++ [0x43]
  ends := .truncated rfl (by decide)

theorem metadata_read_back_retitled :
    parse (Body.mk [.container retitled (by decide)] [1, 2, 3] (.short (by decide))).encode =
      some { title := some "B", artist := some "" } := by
  cases hparse : parse (Body.mk [.container retitled (by decide)] [1, 2, 3]
      (.short (by decide))).encode with
  | none =>
    have hnone := (metadata_read_back _).1.mp hparse
    cases hnone _ List.mem_cons_self
  | some m =>
    rw [(metadata_read_back _).2.1 m hparse]
    decide

end OpenAirplay.Dmap
