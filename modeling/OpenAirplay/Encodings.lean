import OpenAirplay.Crypto
import OpenAirplay.Shared.Base64

/-!
# Base64 in headers and attributes

What both sides rely on of the base64 crate, and that a value is decoded whether its padding was
written or not.
-/

namespace OpenAirplay

open Text

set_option autoImplicit false

/-- Base64 has no symbol that a value would lose at its ends. -/
structure Base64Texts (crates : Crates) : Prop where
  encode : ∀ bytes, ∀ c ∈ (crates.base64Encode bytes).toList, isWhitespace c = false
  encodeNoPad : ∀ bytes, ∀ c ∈ (crates.base64EncodeNoPad bytes).toList, isWhitespace c = false

structure Base64Codes (crates : Crates) : Prop extends Base64Texts crates where
  decode_encode : ∀ bytes, crates.base64DecodeNoPad (crates.base64EncodeNoPad bytes) = some bytes
  padded : ∀ bytes, ∃ n,
    crates.base64Encode bytes = crates.base64EncodeNoPad bytes ++ .ofList (List.replicate n '=')
  unpadded : ∀ bytes, '=' ∉ (crates.base64EncodeNoPad bytes).toList

/-- With padding or without. -/
def Crates.Writes (crates : Crates) (bytes : Bytes) (text : String) : Prop :=
  text = crates.base64EncodeNoPad bytes ∨ text = crates.base64Encode bytes

theorem trim_of_no_whitespace {s : String} (h : ∀ c ∈ s.toList, isWhitespace c = false) :
    trim s = s :=
  trim_eq_self (fun c hc => h c (List.mem_of_head? hc)) fun c hc => h c (List.mem_of_getLast? hc)

/-- What both ways of writing base64 come to. -/
theorem trimEndMatches_padded {s : String} (h : '=' ∉ s.toList) (n : Nat) :
    trimEndMatches (s ++ .ofList (List.replicate n '=')) '=' = s := by
  have htrim : trimEnd (· == '=') (s.toList ++ List.replicate n '=') = s.toList := by
    apply trimEnd_append
    · intro c hc
      rw [List.eq_of_mem_replicate hc]
      rfl
    · intro c hc
      rw [beq_eq_false_iff_ne]
      rintro rfl
      exact h (List.mem_of_getLast? hc)
  rw [trimEndMatches, String.toList_append, String.toList_ofList, htrim, String.ofList_toList]

namespace Base64Codes

variable {crates : Crates} {bytes : Bytes} {text : String}

theorem plain (h : Base64Codes crates) (hwrites : crates.Writes bytes text) :
    ∀ c ∈ text.toList, isWhitespace c = false := by
  rcases hwrites with rfl | rfl
  · exact h.encodeNoPad bytes
  · exact h.encode bytes

theorem decode (h : Base64Codes crates) (hwrites : crates.Writes bytes text) :
    crates.base64DecodeNoPad (trimEndMatches (trim text) '=') = some bytes := by
  obtain ⟨n, hpadded⟩ : ∃ n,
      text = crates.base64EncodeNoPad bytes ++ .ofList (List.replicate n '=') := by
    rcases hwrites with rfl | rfl
    · exact ⟨0, String.append_empty.symm⟩
    · exact h.padded bytes
  rw [trim_of_no_whitespace (h.plain hwrites), hpadded, trimEndMatches_padded (h.unpadded bytes) n,
    h.decode_encode]

end Base64Codes

/-! ## The standard alphabet -/

def Crates.withBase64 (crates : Crates) : Crates :=
  { crates with
    base64Encode := fun bytes => Base64.text (Base64.encode bytes)
    base64EncodeNoPad := fun bytes => Base64.text (Base64.encodeNoPad bytes)
    base64DecodeNoPad := fun s => Base64.decodeNoPad (Base64.symbols s) }

theorem Crates.codes_withBase64 (crates : Crates) : Base64Codes crates.withBase64 := by
  have hplain : ∀ b ∈ Base64.pad :: Base64.alphabet,
      isWhitespace (Char.ofNat b.toNat) = false := by
    decide +kernel
  have hencode : ∀ bytes, ∀ c ∈ (Base64.text (Base64.encode bytes)).toList,
      isWhitespace c = false := by
    intro bytes c hc
    rw [Base64.text, String.toList_ofList] at hc
    obtain ⟨b, hb, rfl⟩ := List.mem_map.mp hc
    exact hplain b (List.mem_cons.mpr (Base64.mem_encode hb).symm)
  constructor
  · refine ⟨hencode, fun bytes c hc => hencode bytes c ?_⟩
    obtain ⟨n, -, hpadded⟩ := Base64.encode_eq_padded bytes
    rw [hpadded, Base64.text_append, String.toList_append]
    exact List.mem_append_left _ hc
  · intro bytes
    simp only [withBase64, Base64.symbols_text]
    exact Base64.decodeNoPad_encodeNoPad bytes
  · intro bytes
    obtain ⟨n, -, hpadded⟩ := Base64.encode_eq_padded bytes
    refine ⟨n, ?_⟩
    simp only [withBase64]
    rw [hpadded, Base64.text_append]
    apply String.toList_inj.mp
    simp [Base64.text, Base64.pad]
  · intro bytes hmem
    apply Base64.pad_notMem_encodeNoPad bytes
    rw [← Base64.symbols_text (Base64.encodeNoPad bytes)]
    exact List.mem_map.mpr ⟨'=', hmem, rfl⟩

end OpenAirplay
