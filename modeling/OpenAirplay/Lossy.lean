import OpenAirplay.Text

/-!
# Lossy decoding

What is UTF-8 comes through `from_utf8_lossy` as it is, and what is not is put right without a
look past the next ASCII byte.
-/

namespace OpenAirplay.Text

set_option autoImplicit false

theorem toNat_ofNat_byte {k : Nat} (h : k < 256) : (UInt8.ofNat k).toNat = k :=
  UInt8.toNat_ofNat_of_lt' h

theorem ofNat_le_ofNat {j k : Nat} (hj : j < 256) (hk : k < 256) :
    UInt8.ofNat j ≤ UInt8.ofNat k ↔ j ≤ k := by
  rw [UInt8.le_iff_toNat_le, toNat_ofNat_byte hj, toNat_ofNat_byte hk]

theorem ofNat_eq_ofNat {j k : Nat} (hj : j < 256) (hk : k < 256) :
    UInt8.ofNat j = UInt8.ofNat k ↔ j = k := by
  rw [← UInt8.toNat_inj, toNat_ofNat_byte hj, toNat_ofNat_byte hk]

theorem isContinuation_ofNat (k : Nat) : isContinuation (UInt8.ofNat (k % 64 + 128)) = true := by
  have hlow := (ofNat_le_ofNat (j := 0x80) (by decide) (by omega)).mpr
    (Nat.le_add_left 128 (k % 64))
  have hhigh := (ofNat_le_ofNat (k := 0xBF) (by omega) (by decide)).mpr
    (by omega : k % 64 + 128 ≤ 0xBF)
  simp only [isContinuation, Bool.and_eq_true, decide_eq_true_eq]
  exact ⟨hlow, hhigh⟩

theorem low_continuation (k : Nat) : low (UInt8.ofNat (k % 64 + 128)) 6 = k % 64 := by
  rw [low, toNat_ofNat_byte (by omega)]
  omega

/-- A second byte within the bounds its first byte sets. -/
theorem secondByteOk_ofNat {j k : Nat} (hj : j < 256) (he0 : j = 0xE0 → 0xA0 ≤ k % 64 + 128)
    (hed : j = 0xED → k % 64 + 128 ≤ 0x9F) (hf0 : j = 0xF0 → 0x90 ≤ k % 64 + 128)
    (hf4 : j = 0xF4 → k % 64 + 128 ≤ 0x8F) :
    secondByteOk (UInt8.ofNat j) (UInt8.ofNat (k % 64 + 128)) = true := by
  have heq : ∀ m : Nat, m < 256 → (UInt8.ofNat j = UInt8.ofNat m ↔ j = m) :=
    fun m hm => ofNat_eq_ofNat hj hm
  have hle : ∀ m : Nat, m < 256 → (UInt8.ofNat (k % 64 + 128) ≤ UInt8.ofNat m ↔ k % 64 + 128 ≤ m) :=
    fun m hm => ofNat_le_ofNat (by omega) hm
  have hge : ∀ m : Nat, m < 256 → (UInt8.ofNat m ≤ UInt8.ofNat (k % 64 + 128) ↔ m ≤ k % 64 + 128) :=
    fun m hm => ofNat_le_ofNat hm (by omega)
  unfold secondByteOk
  split
  · rename_i h
    have hk := he0 ((heq 0xE0 (by decide)).mp h)
    rw [Bool.and_eq_true, decide_eq_true_eq, decide_eq_true_eq]
    exact ⟨(hge 0xA0 (by decide)).mpr hk, (hle 0xBF (by decide)).mpr (by omega)⟩
  · split
    · rename_i h
      have hk := hed ((heq 0xED (by decide)).mp h)
      rw [Bool.and_eq_true, decide_eq_true_eq, decide_eq_true_eq]
      exact ⟨(hge 0x80 (by decide)).mpr (by omega), (hle 0x9F (by decide)).mpr hk⟩
    · split
      · rename_i h
        have hk := hf0 ((heq 0xF0 (by decide)).mp h)
        rw [Bool.and_eq_true, decide_eq_true_eq, decide_eq_true_eq]
        exact ⟨(hge 0x90 (by decide)).mpr hk, (hle 0xBF (by decide)).mpr (by omega)⟩
      · split
        · rename_i h
          have hk := hf4 ((heq 0xF4 (by decide)).mp h)
          rw [Bool.and_eq_true, decide_eq_true_eq, decide_eq_true_eq]
          exact ⟨(hge 0x80 (by decide)).mpr (by omega), (hle 0x8F (by decide)).mpr hk⟩
        · exact isContinuation_ofNat k

theorem within_ofNat {j : Nat} (hj : j < 256) (lo hi : UInt8) :
    (lo ≤ UInt8.ofNat j && UInt8.ofNat j ≤ hi) = decide (lo.toNat ≤ j ∧ j ≤ hi.toNat) := by
  rw [Bool.eq_iff_iff, Bool.and_eq_true, decide_eq_true_eq, decide_eq_true_eq, decide_eq_true_eq,
    UInt8.le_iff_toNat_le, UInt8.le_iff_toNat_le, toNat_ofNat_byte hj]

theorem not_within_ofNat {j : Nat} (hj : j < 256) {lo hi : UInt8} (h : hi.toNat < j) :
    ¬(lo ≤ UInt8.ofNat j && UInt8.ofNat j ≤ hi) = true := by
  rw [within_ofNat hj, decide_eq_true_eq]
  omega

theorem not_ascii_ofNat {j : Nat} (hj : j < 256) (h : 0x80 ≤ j) : ¬UInt8.ofNat j < 0x80 := by
  rw [UInt8.lt_iff_toNat_lt, toNat_ofNat_byte hj]
  exact Nat.not_lt.mpr h

theorem low_ofNat {j : Nat} (hj : j < 256) (bits : Nat) :
    low (UInt8.ofNat j) bits = j % 2 ^ bits := by
  rw [low, toNat_ofNat_byte hj]

theorem decodeFirst_one {j : Nat} (hj : j ≤ 0x7F) (tail : Bytes) :
    decodeFirst (UInt8.ofNat j) tail = (Char.ofNat j, 1) := by
  have hascii : UInt8.ofNat j < 0x80 := by
    rw [UInt8.lt_iff_toNat_lt, toNat_ofNat_byte (by omega)]
    exact Nat.lt_succ_of_le hj
  unfold decodeFirst
  rw [if_pos hascii, toNat_ofNat_byte (by omega)]

theorem decodeFirst_two {j k : Nat} (hlo : 0xC2 ≤ j) (hhi : j ≤ 0xDF) (tail : Bytes) :
    decodeFirst (UInt8.ofNat j) (UInt8.ofNat (k % 64 + 128) :: tail) =
      (Char.ofNat (j % 2 ^ 5 * 2 ^ 6 + k % 64), 2) := by
  have hj : j < 256 := by omega
  have htwo := (within_ofNat hj 0xC2 0xDF).trans (decide_eq_true ⟨hlo, hhi⟩)
  unfold decodeFirst
  rw [if_neg (not_ascii_ofNat hj (by omega)), if_pos htwo]
  simp only [isContinuation_ofNat, if_true, low_continuation, low_ofNat hj]

theorem decodeFirst_three {j k l : Nat} (hlo : 0xE0 ≤ j) (hhi : j ≤ 0xEF)
    (hsecond : secondByteOk (UInt8.ofNat j) (UInt8.ofNat (k % 64 + 128)) = true) (tail : Bytes) :
    decodeFirst (UInt8.ofNat j)
        (UInt8.ofNat (k % 64 + 128) :: UInt8.ofNat (l % 64 + 128) :: tail) =
      (Char.ofNat (j % 2 ^ 4 * 2 ^ 12 + k % 64 * 2 ^ 6 + l % 64), 3) := by
  have hj : j < 256 := by omega
  have htwo : (0xDF : UInt8).toNat < j := lt_of_lt_of_le (by decide) hlo
  have hthree := (within_ofNat hj 0xE0 0xEF).trans (decide_eq_true ⟨hlo, hhi⟩)
  unfold decodeFirst
  rw [if_neg (not_ascii_ofNat hj (by omega)), if_neg (not_within_ofNat hj htwo), if_pos hthree]
  simp only [hsecond, Bool.not_true, Bool.false_eq_true, if_false, isContinuation_ofNat, if_true,
    low_continuation, low_ofNat hj]

theorem decodeFirst_four {j k l m : Nat} (hlo : 0xF0 ≤ j) (hhi : j ≤ 0xF4)
    (hsecond : secondByteOk (UInt8.ofNat j) (UInt8.ofNat (k % 64 + 128)) = true) (tail : Bytes) :
    decodeFirst (UInt8.ofNat j) (UInt8.ofNat (k % 64 + 128) :: UInt8.ofNat (l % 64 + 128) ::
        UInt8.ofNat (m % 64 + 128) :: tail) =
      (Char.ofNat (j % 2 ^ 3 * 2 ^ 18 + k % 64 * 2 ^ 12 + l % 64 * 2 ^ 6 + m % 64), 4) := by
  have hj : j < 256 := by omega
  have htwo : (0xDF : UInt8).toNat < j := lt_of_lt_of_le (by decide) hlo
  have hthree : (0xEF : UInt8).toNat < j := lt_of_lt_of_le (by decide) hlo
  have hfour := (within_ofNat hj 0xF0 0xF4).trans (decide_eq_true ⟨hlo, hhi⟩)
  unfold decodeFirst
  rw [if_neg (not_ascii_ofNat hj (by omega)), if_neg (not_within_ofNat hj htwo),
    if_neg (not_within_ofNat hj hthree), if_pos hfour]
  simp only [hsecond, Bool.not_true, Bool.false_eq_true, if_false, isContinuation_ofNat, if_true,
    low_continuation, low_ofNat hj]

/-- An encoded character is decoded, whatever follows it. -/
theorem decodeFirst_encode (c : Char) (tail : Bytes) :
    ∃ b0 rest, String.utf8EncodeChar c = b0 :: rest ∧
      decodeFirst b0 (rest ++ tail) = (c, (b0 :: rest).length) := by
  have hvalid : c.val.toNat < 0xD800 ∨ 0xDFFF < c.val.toNat ∧ c.val.toNat < 0x110000 := c.valid
  have hback : Char.ofNat c.val.toNat = c := Char.ofNat_toNat c
  simp only [String.utf8EncodeChar]
  generalize c.val.toNat = n at hvalid hback ⊢
  by_cases hone : n ≤ 0x7F
  · refine ⟨_, [], if_pos hone, ?_⟩
    rw [List.nil_append, decodeFirst_one hone, hback]
    rfl
  · by_cases htwo : n ≤ 0x7FF
    · refine ⟨_, [UInt8.ofNat (n % 64 + 128)], by rw [if_neg hone, if_pos htwo], ?_⟩
      refine (decodeFirst_two (by omega) (by omega) tail).trans ?_
      have hvalue : (n / 64 % 32 + 192) % 2 ^ 5 * 2 ^ 6 + n % 64 = n := by omega
      rw [hvalue, hback]
      rfl
    · by_cases hthree : n ≤ 0xFFFF
      · refine ⟨_, [UInt8.ofNat (n / 64 % 64 + 128), UInt8.ofNat (n % 64 + 128)],
          by rw [if_neg hone, if_neg htwo, if_pos hthree], ?_⟩
        refine (decodeFirst_three (by omega) (by omega) ?_ tail).trans ?_
        · apply secondByteOk_ofNat <;> omega
        · have hvalue :
              (n / 4096 % 16 + 224) % 2 ^ 4 * 2 ^ 12 + n / 64 % 64 * 2 ^ 6 + n % 64 = n := by
            omega
          rw [hvalue, hback]
          rfl
      · refine ⟨_, [UInt8.ofNat (n / 4096 % 64 + 128), UInt8.ofNat (n / 64 % 64 + 128),
          UInt8.ofNat (n % 64 + 128)], by rw [if_neg hone, if_neg htwo, if_neg hthree], ?_⟩
        refine (decodeFirst_four (by omega) (by omega) ?_ tail).trans ?_
        · apply secondByteOk_ofNat <;> omega
        · have hvalue : (n / 262144 % 8 + 240) % 2 ^ 3 * 2 ^ 18 + n / 4096 % 64 * 2 ^ 12 +
              n / 64 % 64 * 2 ^ 6 + n % 64 = n := by
            omega
          rw [hvalue, hback]
          rfl

theorem decodeLossy_encode (cs : List Char) (fuel : Nat)
    (h : (cs.flatMap String.utf8EncodeChar).length ≤ fuel) :
    decodeLossy fuel (cs.flatMap String.utf8EncodeChar) = cs := by
  induction cs generalizing fuel with
  | nil => cases fuel <;> rfl
  | cons c cs ih =>
    obtain ⟨b0, rest, hencode, hdecode⟩ :=
      decodeFirst_encode c (cs.flatMap String.utf8EncodeChar)
    rw [List.flatMap_cons, hencode] at h ⊢
    cases fuel with
    | zero => simp at h
    | succ fuel =>
      have hlen : (cs.flatMap String.utf8EncodeChar).length ≤ fuel := by
        simp only [List.cons_append, List.length_cons, List.length_append] at h
        omega
      rw [List.cons_append, decodeLossy, hdecode]
      dsimp only
      rw [← List.cons_append, List.drop_left, ih fuel hlen]

theorem fromUtf8Lossy_utf8 (s : String) : fromUtf8Lossy (utf8 s) = s := by
  rw [fromUtf8Lossy, utf8_eq_flatMap, decodeLossy_encode _ _ le_rfl, String.ofList_toList]

/-! ## Around an ASCII byte -/

theorem isContinuation_ascii {b : UInt8} (hb : b < 0x80) : isContinuation b = false := by
  have hlow : ¬(0x80 : UInt8) ≤ b := UInt8.not_le.mpr hb
  rw [isContinuation, decide_eq_false hlow, Bool.false_and]

theorem secondByteOk_ascii (b0 : UInt8) {b : UInt8} (hb : b < 0x80) :
    secondByteOk b0 b = false := by
  have hle : ∀ k : UInt8, 0x80 ≤ k → decide (k ≤ b) = false := fun k hk =>
    decide_eq_false (UInt8.not_le.mpr (UInt8.lt_of_lt_of_le hb hk))
  unfold secondByteOk
  rw [hle 0xA0 (by decide), hle 0x80 (by decide), hle 0x90 (by decide), isContinuation_ascii hb]
  simp only [Bool.false_and, ite_self]

/-- A sequence that an ASCII byte breaks off is as broken as one at the end. -/
theorem decodeFirst_append (b0 : UInt8) (rest : Bytes) {b : UInt8} (hb : b < 0x80) (tail : Bytes) :
    decodeFirst b0 (rest ++ b :: tail) = decodeFirst b0 rest := by
  have hsecond := secondByteOk_ascii b0 hb
  have hcont := isContinuation_ascii hb
  unfold decodeFirst
  match rest with
  | [] =>
    match tail with
    | [] => simp [hsecond, hcont]
    | [_] => simp [hsecond, hcont]
    | _ :: _ :: _ => simp [hsecond, hcont]
  | [b1] => cases hb1 : secondByteOk b0 b1 <;> cases tail <;> simp [hb1, hcont]
  | [b1, b2] =>
    cases hb1 : secondByteOk b0 b1 <;> cases hb2 : isContinuation b2 <;> simp [hb1, hb2, hcont]
  | b1 :: b2 :: b3 :: more => simp

theorem decodeFirst_length (b0 : UInt8) (rest : Bytes) :
    1 ≤ (decodeFirst b0 rest).2 ∧ (decodeFirst b0 rest).2 ≤ rest.length + 1 := by
  unfold decodeFirst
  match rest with
  | [] => dsimp only; split_ifs <;> simp
  | [b1] => dsimp only; split_ifs <;> simp
  | [b1, b2] => dsimp only; split_ifs <;> simp
  | b1 :: b2 :: b3 :: more => dsimp only; split_ifs <;> simp

theorem length_drop_decodeFirst (b0 : UInt8) (rest : Bytes) :
    ((b0 :: rest).drop (decodeFirst b0 rest).2).length ≤ rest.length := by
  have hone := (decodeFirst_length b0 rest).1
  rw [List.length_drop, List.length_cons]
  omega

/-- Turns that are left over add nothing. -/
theorem decodeLossy_fuel {fuel : Nat} {bytes : Bytes} (h : bytes.length ≤ fuel) :
    decodeLossy fuel bytes = decodeLossy bytes.length bytes := by
  induction fuel using Nat.strong_induction_on generalizing bytes with
  | _ fuel ih =>
    match fuel, bytes with
    | fuel, [] => cases fuel <;> rfl
    | fuel + 1, b0 :: rest =>
      have hdrop := length_drop_decodeFirst b0 rest
      have hrest : rest.length ≤ fuel := Nat.le_of_succ_le_succ h
      rw [List.length_cons, decodeLossy, decodeLossy]
      dsimp only
      rw [ih fuel (Nat.lt_succ_self _) (hdrop.trans hrest),
        ih rest.length (Nat.lt_succ_of_le hrest) hdrop]

/-- The characters that are read of these bytes. -/
def chars (bytes : Bytes) : List Char := (fromUtf8Lossy bytes).toList

theorem chars_nil : chars [] = [] := rfl

theorem chars_cons (b0 : UInt8) (rest : Bytes) :
    chars (b0 :: rest) =
      (decodeFirst b0 rest).1 :: chars ((b0 :: rest).drop (decodeFirst b0 rest).2) := by
  simp only [chars, fromUtf8Lossy, String.toList_ofList, List.length_cons, decodeLossy]
  rw [decodeLossy_fuel (length_drop_decodeFirst b0 rest)]

theorem chars_ascii {b : UInt8} (hb : b < 0x80) (rest : Bytes) :
    chars (b :: rest) = Char.ofNat b.toNat :: chars rest := by
  have hfirst : decodeFirst b rest = (Char.ofNat b.toNat, 1) := by
    unfold decodeFirst
    rw [if_pos hb]
  rw [chars_cons, hfirst]
  rfl

/-- What comes before an ASCII byte is decoded by itself. -/
theorem chars_append (bytes : Bytes) {b : UInt8} (hb : b < 0x80) (tail : Bytes) :
    chars (bytes ++ b :: tail) = chars bytes ++ chars (b :: tail) := by
  induction hn : bytes.length using Nat.strong_induction_on generalizing bytes with
  | _ n ih =>
    match bytes with
    | [] => rfl
    | b0 :: rest =>
      have hlen := (decodeFirst_length b0 rest).2
      rw [List.cons_append, chars_cons, chars_cons b0 rest, decodeFirst_append b0 rest hb,
        ← List.cons_append, List.drop_append_of_le_length (by simpa using hlen), List.cons_append]
      refine congrArg _ (ih _ ?_ _ rfl)
      rw [← hn]
      exact Nat.lt_succ_of_le (length_drop_decodeFirst b0 rest)

end OpenAirplay.Text
