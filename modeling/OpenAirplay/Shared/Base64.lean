import Mathlib.Tactic

/-!
# Base64 with padding

Three octets are four symbols of six bits. One or two octets at the end are filled up with
zeros, and `=` stands for the symbols that hold none of their bits.
-/

namespace Base64

set_option autoImplicit false

def alphabet : List UInt8 :=
  "ABCDEFGHIJKLMNOPQRSTUVWXYZabcdefghijklmnopqrstuvwxyz0123456789+/".toList.map
    fun c => UInt8.ofNat c.toNat

def pad : UInt8 := 61

/-- The symbol of the lowest six bits. -/
def symbol (n : Nat) : UInt8 := alphabet.getD (n % 64) pad

def value (c : UInt8) : Option Nat :=
  let i := alphabet.idxOf c
  if i < 64 then some i else none

def encode : List UInt8 → List UInt8
  | [] => []
  | [a] =>
    let n := a.toNat * 2 ^ 4
    [symbol (n / 2 ^ 6), symbol n, pad, pad]
  | [a, b] =>
    let n := a.toNat * 2 ^ 10 + b.toNat * 2 ^ 2
    [symbol (n / 2 ^ 12), symbol (n / 2 ^ 6), symbol n, pad]
  | a :: b :: c :: rest =>
    let n := a.toNat * 2 ^ 16 + b.toNat * 2 ^ 8 + c.toNat
    symbol (n / 2 ^ 18) :: symbol (n / 2 ^ 12) :: symbol (n / 2 ^ 6) :: symbol n :: encode rest

/-- The bits that fill up the last symbol must be zero. -/
def decode : List UInt8 → Option (List UInt8)
  | [] => some []
  | w :: x :: y :: z :: rest =>
    match value w, value x, value y, value z with
    | some p, some q, some r, some s =>
      let n := p * 2 ^ 18 + q * 2 ^ 12 + r * 2 ^ 6 + s
      (decode rest).map fun octets =>
        .ofNat (n / 2 ^ 16) :: .ofNat (n / 2 ^ 8) :: .ofNat n :: octets
    | some p, some q, some r, none =>
      let n := p * 2 ^ 12 + q * 2 ^ 6 + r
      if z = pad ∧ rest = [] ∧ n % 2 ^ 2 = 0 then
        some [.ofNat (n / 2 ^ 10), .ofNat (n / 2 ^ 2)]
      else none
    | some p, some q, none, none =>
      let n := p * 2 ^ 6 + q
      if y = pad ∧ z = pad ∧ rest = [] ∧ n % 2 ^ 4 = 0 then some [.ofNat (n / 2 ^ 4)] else none
    | _, _, _, _ => none
  | _ => none

theorem value_symbol (n : Nat) : value (symbol n) = some (n % 64) := by
  have hall : ∀ i < 64, value (alphabet.getD i pad) = some i := by decide +kernel
  exact hall _ (Nat.mod_lt _ (by decide))

theorem value_pad : value pad = none := by decide +kernel

theorem symbol_mem (n : Nat) : symbol n ∈ alphabet := by
  have hall : ∀ i < 64, alphabet.getD i pad ∈ alphabet := by decide +kernel
  exact hall _ (Nat.mod_lt _ (by decide))

theorem ofNat_eq {a : UInt8} {n : Nat} (h : n % 256 = a.toNat) : UInt8.ofNat n = a := by
  apply UInt8.toNat_inj.mp
  rw [UInt8.toNat_ofNat', h]

theorem decode_encode (octets : List UInt8) : decode (encode octets) = some octets := by
  induction octets using encode.induct with
  | case1 => rfl
  | case2 a =>
    have ha := a.toNat_lt
    have hfilled : (a.toNat * 2 ^ 4 / 2 ^ 6 % 64 * 2 ^ 6 + a.toNat * 2 ^ 4 % 64) % 2 ^ 4 = 0 := by
      omega
    simp only [encode, decode, value_symbol, value_pad, hfilled, and_self, if_true]
    rw [ofNat_eq (a := a) (by omega)]
  | case3 a b =>
    have ha := a.toNat_lt
    have hb := b.toNat_lt
    have hfilled : ((a.toNat * 2 ^ 10 + b.toNat * 2 ^ 2) / 2 ^ 12 % 64 * 2 ^ 12 +
        (a.toNat * 2 ^ 10 + b.toNat * 2 ^ 2) / 2 ^ 6 % 64 * 2 ^ 6 +
          (a.toNat * 2 ^ 10 + b.toNat * 2 ^ 2) % 64) % 2 ^ 2 = 0 := by
      omega
    simp only [encode, decode, value_symbol, value_pad, hfilled, and_self, if_true]
    rw [ofNat_eq (a := a) (by omega), ofNat_eq (a := b) (by omega)]
  | case4 a b c rest ih =>
    have ha := a.toNat_lt
    have hb := b.toNat_lt
    have hc := c.toNat_lt
    simp only [encode, decode, value_symbol, ih, Option.map_some]
    rw [ofNat_eq (a := a) (by omega), ofNat_eq (a := b) (by omega), ofNat_eq (a := c) (by omega)]

/-- `AB==` fills up with a one. -/
example : decode [65, 66, 61, 61] = none := by decide +kernel

theorem length_encode (octets : List UInt8) :
    (encode octets).length = (octets.length + 2) / 3 * 4 := by
  induction octets using encode.induct with
  | case1 => rfl
  | case2 => simp [encode]
  | case3 => simp [encode]
  | case4 a b c rest ih =>
    simp only [encode, List.length_cons, ih]
    omega

theorem mem_encode {octets : List UInt8} {b : UInt8} (h : b ∈ encode octets) :
    b ∈ alphabet ∨ b = pad := by
  induction octets using encode.induct with
  | case1 => cases h
  | case2 =>
    simp only [encode, List.mem_cons, List.not_mem_nil, or_false] at h
    rcases h with rfl | rfl | rfl | rfl <;> simp [symbol_mem]
  | case3 =>
    simp only [encode, List.mem_cons, List.not_mem_nil, or_false] at h
    rcases h with rfl | rfl | rfl | rfl <;> simp [symbol_mem]
  | case4 a b c rest ih =>
    simp only [encode, List.mem_cons] at h
    rcases h with rfl | rfl | rfl | rfl | h
    · exact .inl (symbol_mem _)
    · exact .inl (symbol_mem _)
    · exact .inl (symbol_mem _)
    · exact .inl (symbol_mem _)
    · exact ih h

/-! ## Without padding -/

def encodeNoPad (octets : List UInt8) : List UInt8 := (encode octets).takeWhile (· != pad)

/-- There must not be any. -/
def decodeNoPad (symbols : List UInt8) : Option (List UInt8) :=
  if pad ∈ symbols then none
  else decode (symbols ++ List.replicate ((4 - symbols.length % 4) % 4) pad)

theorem symbol_ne_pad (n : Nat) : (symbol n != pad) = true := by
  have hall : ∀ b ∈ alphabet, (b != pad) = true := by decide +kernel
  exact hall _ (symbol_mem n)

theorem encode_eq_padded (octets : List UInt8) :
    ∃ n < 3, encode octets = encodeNoPad octets ++ List.replicate n pad := by
  induction octets using encode.induct with
  | case1 => exact ⟨0, by decide, rfl⟩
  | case2 a => exact ⟨2, by decide, by simp [encodeNoPad, encode, symbol_ne_pad]⟩
  | case3 a b => exact ⟨1, by decide, by simp [encodeNoPad, encode, symbol_ne_pad]⟩
  | case4 a b c rest ih =>
    obtain ⟨n, hn, hrest⟩ := ih
    refine ⟨n, hn, ?_⟩
    simp only [encodeNoPad, encode, List.takeWhile_cons, symbol_ne_pad, if_true, List.cons_append,
      List.cons.injEq, true_and]
    exact hrest

theorem pad_notMem_encodeNoPad (octets : List UInt8) : pad ∉ encodeNoPad octets := by
  intro hmem
  have hne := List.all_eq_true.mp List.all_takeWhile pad hmem
  simp at hne

theorem decodeNoPad_encodeNoPad (octets : List UInt8) :
    decodeNoPad (encodeNoPad octets) = some octets := by
  obtain ⟨n, hn, hpadded⟩ := encode_eq_padded octets
  have hlen := length_encode octets
  rw [hpadded, List.length_append, List.length_replicate] at hlen
  have hmissing : (4 - (encodeNoPad octets).length % 4) % 4 = n := by omega
  rw [decodeNoPad, if_neg (pad_notMem_encodeNoPad octets), hmissing, ← hpadded, decode_encode]

/-! ## As text -/

def text (symbols : List UInt8) : String := .ofList (symbols.map fun b => Char.ofNat b.toNat)

/-- A character that is no octet is no symbol either. -/
def symbols (text : String) : List UInt8 :=
  text.toList.map fun c => if c.toNat < 256 then UInt8.ofNat c.toNat else 0

theorem symbols_text (bytes : List UInt8) : symbols (text bytes) = bytes := by
  have hback : ∀ b : UInt8, (if (Char.ofNat b.toNat).toNat < 256 then
      UInt8.ofNat (Char.ofNat b.toNat).toNat else 0) = b := by
    intro b
    have hlt := b.toNat_lt
    have hvalid : b.toNat.isValidChar := .inl (by omega)
    have hsame : (Char.ofNat b.toNat).toNat = b.toNat := by
      rw [Char.ofNat, dif_pos hvalid]
      rfl
    rw [hsame, if_pos hlt, UInt8.ofNat_toNat]
  rw [symbols, text, String.toList_ofList, List.map_map]
  simp only [Function.comp_def, hback, List.map_id']

theorem text_append (bytes bytes' : List UInt8) :
    text (bytes ++ bytes') = text bytes ++ text bytes' := by
  apply String.toList_inj.mp
  simp [text]

end Base64
