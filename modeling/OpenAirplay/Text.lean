import OpenAirplay.Wire

/-!
# String operations of the standard library

The `str` methods the receiver's header and body parsing rests on, on the characters
of a string. Byte offsets never leave these functions, so characters are enough.
-/

namespace OpenAirplay.Text

set_option autoImplicit false

/-- Unicode `White_Space`, which `trim` and `split_whitespace` go by. -/
def isWhitespace (c : Char) : Bool :=
  let n := c.toNat
  (9 ≤ n && n ≤ 13) || n = 0x20 || n = 0x85 || n = 0xA0 || n = 0x1680 ||
    (0x2000 ≤ n && n ≤ 0x200A) || n = 0x2028 || n = 0x2029 || n = 0x202F || n = 0x205F ||
    n = 0x3000

def trimEnd (p : Char → Bool) (cs : List Char) : List Char := (cs.reverse.dropWhile p).reverse

def trim (s : String) : String := .ofList (trimEnd isWhitespace (s.toList.dropWhile isWhitespace))

def trimEndMatches (s : String) (c : Char) : String := .ofList (trimEnd (· == c) s.toList)

def stripPrefix (s p : String) : Option String :=
  if p.toList.isPrefixOf s.toList then some (.ofList (s.toList.drop p.toList.length)) else none

def startsWith (s p : String) : Bool := p.toList.isPrefixOf s.toList

def splitChars (sep : Char → Bool) : List Char → List (List Char)
  | [] => [[]]
  | c :: cs =>
    if sep c then [] :: splitChars sep cs
    else match splitChars sep cs with
      | [] => [[c]]
      | part :: parts => (c :: part) :: parts

def split (s : String) (sep : Char) : List String :=
  (splitChars (· == sep) s.toList).map .ofList

def splitWhitespace (s : String) : List String :=
  ((splitChars isWhitespace s.toList).filter fun part => !part.isEmpty).map .ofList

def splitOnce (s : String) (sep : Char) : Option (String × String) :=
  match s.toList.span (· != sep) with
  | (_, []) => none
  | (before, _ :: after) => some (.ofList before, .ofList after)

/-- At most `n` parts; the last one is all that is left. -/
def splitN (sep : Char) : Nat → String → List String
  | 0, _ => []
  | 1, s => [s]
  | n + 2, s =>
    match splitOnce s sep with
    | none => [s]
    | some (before, rest) => before :: splitN sep (n + 1) rest

def stripCarriageReturn (cs : List Char) : List Char :=
  if cs.getLast? = some '\r' then cs.dropLast else cs

/-- A last line without a newline counts, an empty one after the final newline does not.
Only a newline makes a carriage return before it part of the line ending. -/
def lines (s : String) : List String :=
  let parts := splitChars (· == '\n') s.toList
  let terminated := parts.dropLast.map stripCarriageReturn
  let rest := parts.getLastD []
  (if rest.isEmpty then terminated else terminated ++ [rest]).map .ofList

def lowerAscii (c : Char) : Char := if 'A' ≤ c ∧ c ≤ 'Z' then Char.ofNat (c.toNat + 32) else c

def eqIgnoreAsciiCase (a b : String) : Bool :=
  a.toList.map lowerAscii == b.toList.map lowerAscii

/-- `s.get(..n)`: nothing when `n` bytes do not end at a character boundary. -/
def getPrefix : List Char → Nat → Option (List Char)
  | _, 0 => some []
  | [], _ + 1 => none
  | c :: cs, n + 1 =>
    if c.utf8Size ≤ n + 1 then (getPrefix cs (n + 1 - c.utf8Size)).map (c :: ·) else none

def digit? (c : Char) : Option Nat :=
  if '0' ≤ c ∧ c ≤ '9' then some (c.toNat - '0'.toNat) else none

def parseDigits (bound : Nat) : Nat → List Char → Option Nat
  | acc, [] => some acc
  | acc, c :: cs =>
    match digit? c with
    | none => none
    | some d => if acc * 10 + d < bound then parseDigits bound (acc * 10 + d) cs else none

/-- `parse::<uN>` with `bound = 2^N`: an optional plus sign, then digits that fit. -/
def parseUnsigned (bound : Nat) (s : String) : Option Nat :=
  match s.toList with
  | [] => none
  | ['+'] => none
  | '+' :: cs => parseDigits bound 0 cs
  | cs => parseDigits bound 0 cs

def parseU16 (s : String) : Option U16 := (parseUnsigned (2 ^ 16) s).map (BitVec.ofNat 16)

def parseU32 (s : String) : Option U32 := (parseUnsigned (2 ^ 32) s).map (BitVec.ofNat 32)

def parseUsize (s : String) : Option Nat := parseUnsigned (2 ^ 64) s

/-- What follows the first occurrence of `needle`. -/
def afterFirst (needle : List Char) : List Char → Option (List Char)
  | [] => if needle.isEmpty then some [] else none
  | c :: cs =>
    if needle.isPrefixOf (c :: cs) then some ((c :: cs).drop needle.length)
    else afterFirst needle cs

def utf8 (s : String) : Bytes := s.toUTF8.data.toList

def fromUtf8 (bytes : Bytes) : Option String := String.fromUTF8? ⟨bytes.toArray⟩

def isContinuation (b : UInt8) : Bool := 0x80 ≤ b && b ≤ 0xBF

/-- Second bytes that rule out overlong forms, surrogates and values past U+10FFFF. -/
def secondByteOk (b0 b1 : UInt8) : Bool :=
  if b0 = 0xE0 then 0xA0 ≤ b1 && b1 ≤ 0xBF
  else if b0 = 0xED then 0x80 ≤ b1 && b1 ≤ 0x9F
  else if b0 = 0xF0 then 0x90 ≤ b1 && b1 ≤ 0xBF
  else if b0 = 0xF4 then 0x80 ≤ b1 && b1 ≤ 0x8F
  else isContinuation b1

def low (b : UInt8) (bits : Nat) : Nat := b.toNat % 2 ^ bits

def replacement : Char := Char.ofNat 0xFFFD

/-- The first character of `b0 :: rest` and how many bytes it takes. A broken sequence is one
replacement character for as much of it as is well-formed. -/
def decodeFirst (b0 : UInt8) (rest : Bytes) : Char × Nat :=
  if b0 < 0x80 then (Char.ofNat b0.toNat, 1)
  else if 0xC2 ≤ b0 && b0 ≤ 0xDF then
    match rest with
    | b1 :: _ =>
      if isContinuation b1 then (Char.ofNat (low b0 5 * 2 ^ 6 + low b1 6), 2) else (replacement, 1)
    | [] => (replacement, 1)
  else if 0xE0 ≤ b0 && b0 ≤ 0xEF then
    match rest with
    | b1 :: b2 :: _ =>
      if !secondByteOk b0 b1 then (replacement, 1)
      else if isContinuation b2 then
        (Char.ofNat (low b0 4 * 2 ^ 12 + low b1 6 * 2 ^ 6 + low b2 6), 3)
      else (replacement, 2)
    | [b1] => (replacement, if secondByteOk b0 b1 then 2 else 1)
    | [] => (replacement, 1)
  else if 0xF0 ≤ b0 && b0 ≤ 0xF4 then
    match rest with
    | b1 :: b2 :: b3 :: _ =>
      if !secondByteOk b0 b1 then (replacement, 1)
      else if !isContinuation b2 then (replacement, 2)
      else if isContinuation b3 then
        (Char.ofNat (low b0 3 * 2 ^ 18 + low b1 6 * 2 ^ 12 + low b2 6 * 2 ^ 6 + low b3 6), 4)
      else (replacement, 3)
    | [b1, b2] =>
      (replacement, if !secondByteOk b0 b1 then 1 else if isContinuation b2 then 3 else 2)
    | [b1] => (replacement, if secondByteOk b0 b1 then 2 else 1)
    | [] => (replacement, 1)
  else (replacement, 1)

def decodeLossy : Nat → Bytes → List Char
  | 0, _ => []
  | _ + 1, [] => []
  | fuel + 1, b0 :: rest =>
    let (c, n) := decodeFirst b0 rest
    c :: decodeLossy fuel ((b0 :: rest).drop n)

/-- Every character takes at least one byte, so the length is enough turns. -/
def fromUtf8Lossy (bytes : Bytes) : String := .ofList (decodeLossy bytes.length bytes)

example : lines "a=1\r\nb\n\nc\r" = ["a=1", "b", "", "c\r"] := by decide

example : parseU16 "65535" = some 65535 ∧ parseU16 "65536" = none ∧ parseU16 "+7" = some 7 := by
  decide

example : fromUtf8Lossy [0x41, 0xC3, 0xA9, 0xE2, 0x82, 0x42] = "Aé\uFFFDB" := by decide

example : splitN ' ' 3 "a b c d" = ["a", "b", "c d"] ∧ splitN ' ' 3 "a" = ["a"] := by decide

/-! ## What splitting and trimming undo -/

theorem splitOnce_eq {line s t : String} {sep : Char} (hsep : sep ∉ s.toList)
    (h : line.toList = s.toList ++ sep :: t.toList) : splitOnce line sep = some (s, t) := by
  have hspan : (s.toList ++ sep :: t.toList).span (· != sep) = (s.toList, sep :: t.toList) := by
    rw [List.span_eq_takeWhile_dropWhile]
    have hall : ∀ c ∈ s.toList, (c != sep) = true := by
      intro c hc
      simpa using fun he : c = sep => hsep (he ▸ hc)
    rw [List.takeWhile_append_of_pos hall, List.dropWhile_append_of_pos hall]
    simp
  simp only [splitOnce, h, hspan, String.ofList_toList]

theorem trimEnd_append {p : Char → Bool} {cs tail : List Char} (htail : ∀ c ∈ tail, p c = true)
    (hlast : ∀ c, cs.getLast? = some c → p c = false) : trimEnd p (cs ++ tail) = cs := by
  have hrest : cs.reverse.dropWhile p = cs.reverse := by
    cases hcs : cs.reverse with
    | nil => rfl
    | cons c rest =>
      have hc : p c = false := by
        apply hlast
        rw [← List.head?_reverse, hcs]
        rfl
      simp [hc]
  have hall : ∀ c ∈ tail.reverse, p c = true := fun c hc => htail c (List.mem_reverse.mp hc)
  rw [trimEnd, List.reverse_append, List.dropWhile_append_of_pos hall, hrest, List.reverse_reverse]

theorem getLast_trim {s : String} {c : Char} (h : trim s = s) (hc : s.toList.getLast? = some c) :
    isWhitespace c = false := by
  have htrim : s.toList = trimEnd isWhitespace (s.toList.dropWhile isWhitespace) := by
    have hlist := congrArg String.toList h
    rw [trim, String.toList_ofList] at hlist
    exact hlist.symm
  rw [htrim, trimEnd, List.getLast?_reverse] at hc
  have hhead := List.head?_dropWhile_not isWhitespace (s.toList.dropWhile isWhitespace).reverse
  rw [hc] at hhead
  exact hhead

theorem trim_space (s : String) : trim (" " ++ s) = trim s := by
  have hspace : isWhitespace ' ' = true := by decide
  simp only [trim, String.toList_append]
  rw [show " ".toList = [' '] from rfl, List.singleton_append, List.dropWhile_cons_of_pos hspace]

theorem splitOnce_some {line s t : String} {sep : Char} (h : splitOnce line sep = some (s, t)) :
    sep ∉ s.toList ∧ line.toList = s.toList ++ sep :: t.toList := by
  rw [splitOnce, List.span_eq_takeWhile_dropWhile] at h
  cases hrest : line.toList.dropWhile (· != sep) with
  | nil =>
    rw [hrest] at h
    cases h
  | cons c rest =>
    rw [hrest] at h
    cases h
    have hstop := List.head?_dropWhile_not (· != sep) line.toList
    rw [hrest] at hstop
    have hc : c = sep := by simpa using hstop
    subst hc
    rw [String.toList_ofList, String.toList_ofList, ← hrest, List.takeWhile_append_dropWhile]
    refine ⟨fun hmem => ?_, rfl⟩
    have hall := List.all_eq_true.mp List.all_takeWhile _ hmem
    simp at hall

theorem trimEnd_isPrefix (p : Char → Bool) (cs : List Char) : trimEnd p cs <+: cs := by
  rw [trimEnd, ← List.reverse_suffix, List.reverse_reverse]
  exact List.dropWhile_suffix p

theorem trimEnd_last {p : Char → Bool} {cs : List Char} {c : Char}
    (h : (trimEnd p cs).getLast? = some c) : p c = false := by
  rw [trimEnd, List.getLast?_reverse] at h
  have hhead := List.head?_dropWhile_not p cs.reverse
  rw [h] at hhead
  exact hhead

theorem mem_of_mem_trim {s : String} {c : Char} (h : c ∈ (trim s).toList) : c ∈ s.toList := by
  rw [trim, String.toList_ofList] at h
  exact (List.dropWhile_suffix _).subset ((trimEnd_isPrefix _ _).subset h)

/-- Nothing to trim at either end. -/
theorem trim_eq_self {s : String} (hfirst : ∀ c, s.toList.head? = some c → isWhitespace c = false)
    (hlast : ∀ c, s.toList.getLast? = some c → isWhitespace c = false) : trim s = s := by
  have hdrop : s.toList.dropWhile isWhitespace = s.toList := by
    cases hs : s.toList with
    | nil => rfl
    | cons c cs =>
      have hc : ¬isWhitespace c = true := by
        rw [hfirst c (by rw [hs]; rfl)]
        decide
      rw [List.dropWhile_cons_of_neg hc]
  have hend : trimEnd isWhitespace (s.toList ++ []) = s.toList := trimEnd_append (by simp) hlast
  rw [List.append_nil] at hend
  rw [trim, hdrop, hend, String.ofList_toList]

theorem trim_trim (s : String) : trim (trim s) = trim s := by
  apply trim_eq_self
  · intro c hc
    have hhead := List.head?_dropWhile_not isWhitespace s.toList
    rw [trim, String.toList_ofList] at hc
    obtain ⟨tail, htail⟩ := trimEnd_isPrefix isWhitespace (s.toList.dropWhile isWhitespace)
    have hc' : (s.toList.dropWhile isWhitespace).head? = some c := by
      rw [← htail, List.head?_append, hc]
      rfl
    rw [hc'] at hhead
    exact hhead
  · intro c hc
    rw [trim, String.toList_ofList] at hc
    exact trimEnd_last hc

/-! ## Numbers in decimal -/

theorem le_ofDigitChars (cs : List Char) (n : Nat) : n ≤ Nat.ofDigitChars 10 cs n := by
  induction cs generalizing n with
  | nil => simp
  | cons c cs ih =>
    rw [Nat.ofDigitChars_cons]
    have hle := ih (10 * n + (c.toNat - '0'.toNat))
    omega

theorem parseDigits_eq {bound : Nat} {cs : List Char} (hdigits : ∀ c ∈ cs, c.isDigit) {acc : Nat}
    (h : Nat.ofDigitChars 10 cs acc < bound) :
    parseDigits bound acc cs = some (Nat.ofDigitChars 10 cs acc) := by
  induction cs generalizing acc with
  | nil => simp [parseDigits]
  | cons c cs ih =>
    have hc := hdigits c List.mem_cons_self
    have hdigit : digit? c = some (c.toNat - '0'.toNat) := by
      simp only [Char.isDigit, ge_iff_le, Bool.and_eq_true, decide_eq_true_eq] at hc
      exact if_pos hc
    rw [Nat.ofDigitChars_cons] at h ⊢
    have hlt := Nat.lt_of_le_of_lt (le_ofDigitChars cs _) h
    rw [Nat.mul_comm] at h hlt ⊢
    simp only [parseDigits, hdigit, if_pos hlt]
    exact ih (fun d hd => hdigits d (List.mem_cons_of_mem _ hd)) h

theorem isDigit_of_mem_repr {n : Nat} {c : Char} (h : c ∈ (Nat.repr n).toList) : c.isDigit := by
  rw [Nat.toList_repr] at h
  exact Nat.isDigit_of_mem_toDigits (by decide) (by decide) h

theorem repr_ne_empty (n : Nat) : (Nat.repr n).toList ≠ [] := by
  rw [Nat.toList_repr]
  exact Nat.toDigits_ne_nil

theorem isWhitespace_of_isDigit {c : Char} (h : c.isDigit) : isWhitespace c = false := by
  simp only [Char.isDigit, ge_iff_le, Bool.and_eq_true, decide_eq_true_eq] at h
  have hlow : 48 ≤ c.toNat := h.1
  have hhigh : c.toNat ≤ 57 := h.2
  simp only [isWhitespace, Bool.or_eq_false_iff, Bool.and_eq_false_imp, decide_eq_true_eq, decide_eq_false_iff_not]
  omega

theorem parseUnsigned_repr {bound n : Nat} (h : n < bound) :
    parseUnsigned bound (Nat.repr n) = some n := by
  have hdigits : ∀ c ∈ (Nat.repr n).toList, c.isDigit := fun c hc => isDigit_of_mem_repr hc
  have hparse : parseDigits bound 0 (Nat.repr n).toList = some n := by
    have hvalue : Nat.ofDigitChars 10 (Nat.repr n).toList 0 = n := by
      rw [Nat.toList_repr, Nat.ofDigitChars_ten_toDigits]
    rw [parseDigits_eq hdigits (by rwa [hvalue]), hvalue]
  have hplus : '+' ∉ (Nat.repr n).toList := fun hmem => absurd (hdigits _ hmem) (by decide)
  unfold parseUnsigned
  split
  · rename_i hnil
    exact absurd hnil (repr_ne_empty n)
  · rename_i hcs
    simp [hcs] at hplus
  · rename_i hcs
    simp [hcs] at hplus
  · exact hparse

/-! ## Bytes of a string -/

theorem fromUtf8_utf8 (s : String) : fromUtf8 (utf8 s) = some s := by
  have hbytes : (⟨(utf8 s).toArray⟩ : ByteArray) = s.toByteArray := by
    simp [utf8]
  have hvalid : s.toByteArray.IsValidUTF8 := s.isValidUTF8
  simp only [fromUtf8, hbytes, String.fromUTF8?, dif_pos hvalid]
  rfl

theorem fromUtf8_eq_some {bytes : Bytes} {s : String} (h : fromUtf8 bytes = some s) :
    utf8 s = bytes := by
  simp only [fromUtf8, String.fromUTF8?] at h
  split at h
  · cases h
    rfl
  · cases h

theorem utf8_append (s t : String) : utf8 (s ++ t) = utf8 s ++ utf8 t := by
  simp [utf8]

theorem utf8_eq_flatMap (s : String) : utf8 s = s.toList.flatMap String.utf8EncodeChar := by
  rw [utf8, String.toUTF8_eq_toByteArray, ← String.utf8Encode_toList, List.utf8Encode]
  simp

theorem newline_of_mem_utf8EncodeChar {c : Char} (h : (10 : UInt8) ∈ String.utf8EncodeChar c) :
    c = '\n' := by
  have htail : ∀ n, n % 256 ≠ 10 → (10 : UInt8) ≠ UInt8.ofNat n := by
    intro n hn he
    have hnat := congrArg UInt8.toNat he
    simp only [UInt8.toNat_ofNat'] at hnat
    exact hn hnat.symm
  simp only [String.utf8EncodeChar] at h
  split at h
  · rename_i hsmall
    have hnat : c.val.toNat % 256 = 10 := by
      by_contra hn
      exact htail _ hn (List.mem_singleton.mp h)
    apply Char.ext
    apply UInt32.toNat_inj.mp
    change c.val.toNat = 10
    omega
  · exfalso
    split at h
    · simp only [List.mem_cons, List.not_mem_nil, or_false] at h
      rcases h with h | h <;> exact htail _ (by omega) h
    · split at h <;> simp only [List.mem_cons, List.not_mem_nil, or_false] at h
      · rcases h with h | h | h <;> exact htail _ (by omega) h
      · rcases h with h | h | h | h <;> exact htail _ (by omega) h

theorem newline_of_mem_utf8 {s : String} (h : (10 : UInt8) ∈ utf8 s) : '\n' ∈ s.toList := by
  rw [utf8_eq_flatMap] at h
  obtain ⟨c, hc, hmem⟩ := List.mem_flatMap.mp h
  exact newline_of_mem_utf8EncodeChar hmem ▸ hc

theorem digit_of_mem_utf8EncodeChar {c : Char} (hc : c.isDigit) {b : UInt8}
    (h : b ∈ String.utf8EncodeChar c) : 0x30 ≤ b ∧ b ≤ 0x39 := by
  have hall : ∀ n < 58, 48 ≤ n → ∀ b ∈ String.utf8EncodeChar (Char.ofNat n),
      0x30 ≤ b ∧ b ≤ 0x39 := by decide +kernel
  simp only [Char.isDigit, ge_iff_le, Bool.and_eq_true, decide_eq_true_eq] at hc
  have hlow : 48 ≤ c.toNat := hc.1
  have hhigh : c.toNat ≤ 57 := hc.2
  rw [← Char.ofNat_toNat c] at h
  exact hall c.toNat (Nat.lt_succ_of_le hhigh) hlow b h

theorem digit_of_mem_utf8 {n : Nat} {b : UInt8} (h : b ∈ utf8 (toString n)) :
    0x30 ≤ b ∧ b ≤ 0x39 := by
  rw [utf8_eq_flatMap] at h
  obtain ⟨c, hc, hmem⟩ := List.mem_flatMap.mp h
  have hdigits : (toString n).toList = Nat.toDigits 10 n := by simp
  rw [hdigits] at hc
  exact digit_of_mem_utf8EncodeChar (Nat.isDigit_of_mem_toDigits (by decide) (by decide) hc) hmem

end OpenAirplay.Text
