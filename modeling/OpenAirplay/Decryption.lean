import Mathlib.Data.FinEnum
import Mathlib.Data.Fintype.Vector
import OpenAirplay.Shared.Chaining
import OpenAirplay.Timestamps

/-!
# Encrypted audio

A sender encrypts the whole blocks of a payload, chained from the same vector for every packet,
and leaves the rest of it in the clear.
-/

namespace OpenAirplay.Rtp

open Chaining

set_option autoImplicit false

/-- What the receiver relies on of the cipher the sender uses. -/
structure Inverts (encryptBlock decryptBlock : Block → Bytes → Bytes) : Prop where
  length : ∀ key block, block.length = 16 → (encryptBlock key block).length = 16
  inverse : ∀ key block, block.length = 16 → decryptBlock key (encryptBlock key block) = block

section Encrypt

variable (encryptBlock : Block → Bytes → Bytes)

/-- CBC over `n` whole blocks, as the sender does it. -/
def encryptBlocks (key : Block) : Nat → Bytes → Bytes → Bytes
  | 0, _, data => data
  | n + 1, prev, data =>
    let block := encryptBlock key (List.zipWith (· ^^^ ·) (data.take 16) prev)
    block ++ encryptBlocks key n block (data.drop 16)

def encryptAudio (payload : Bytes) (key iv : Block) : Bytes :=
  encryptBlocks encryptBlock key (payload.length / 16) iv.toList payload

end Encrypt

/-! ## Bytes as blocks -/

abbrev Octets := {b : Bytes // b.length = 16}

instance : Finite Octets := inferInstanceAs (Finite (List.Vector UInt8 16))

def mask (b m : Octets) : Octets :=
  ⟨List.zipWith (· ^^^ ·) b.1 m.1, by rw [List.length_zipWith, b.2, m.2, Nat.min_self]⟩

def joined (bs : List Octets) : Bytes := bs.flatMap Subtype.val

theorem zipWith_xor_cancel {a b : Bytes} (h : a.length = b.length) :
    List.zipWith (· ^^^ ·) (List.zipWith (· ^^^ ·) a b) b = a := by
  induction a generalizing b with
  | nil => rfl
  | cons x a ih =>
    cases b with
    | nil => cases h
    | cons y b =>
      have hxy : x ^^^ y ^^^ y = x := by rw [UInt8.xor_assoc, UInt8.xor_self, UInt8.xor_zero]
      simp only [List.zipWith_cons_cons, hxy, ih (Nat.succ.inj h)]

theorem mask_cancel (b m : Octets) : mask (mask b m) m = b :=
  Subtype.ext (zipWith_xor_cancel (b.2.trans m.2.symm))

theorem length_joined (bs : List Octets) : (joined bs).length = 16 * bs.length := by
  induction bs with
  | nil => rfl
  | cons b bs ih =>
    have hcons : joined (b :: bs) = b.1 ++ joined bs := List.flatMap_cons ..
    rw [hcons, List.length_append, b.2, ih, List.length_cons]
    omega

/-- Any bytes are whole blocks and fewer bytes than a block. -/
theorem exists_joined (data : Bytes) :
    ∃ bs tail, joined bs ++ tail = data ∧ tail.length < 16 := by
  have hwhole : ∀ n, 16 * n ≤ data.length → ∃ bs, joined bs = data.take (16 * n) := by
    intro n
    induction n with
    | zero => exact fun _ => ⟨[], rfl⟩
    | succ n ih =>
      intro hn
      obtain ⟨bs, hbs⟩ := ih (by omega)
      have hlast : ((data.drop (16 * n)).take 16).length = 16 := by
        rw [List.length_take, List.length_drop]
        omega
      refine ⟨bs ++ [⟨_, hlast⟩], ?_⟩
      rw [Nat.mul_add, Nat.mul_one, List.take_add, ← hbs]
      simp [joined]
  obtain ⟨bs, hbs⟩ := hwhole (data.length / 16) (Nat.mul_div_le data.length 16)
  refine ⟨bs, data.drop (16 * (data.length / 16)), ?_, ?_⟩
  · rw [hbs, List.take_append_drop]
  · rw [List.length_drop]
    omega

/-! ## The cipher on blocks -/

section Cipher

variable {encryptBlock decryptBlock : Block → Bytes → Bytes}
  (h : Inverts encryptBlock decryptBlock) (key : Block)

namespace Inverts

def encrypt (b : Octets) : Octets := ⟨encryptBlock key b.1, h.length key b.1 b.2⟩

/-- Every block is the encryption of one, so decryption keeps the length too. -/
theorem exists_encrypt (c : Octets) : ∃ b, h.encrypt key b = c := by
  have hinjective : Function.Injective (h.encrypt key) := by
    intro b b' heq
    have hsame := congrArg (fun c => decryptBlock key c.1) heq
    simp only [encrypt, h.inverse key _ b.2, h.inverse key _ b'.2] at hsame
    exact Subtype.ext hsame
  exact Finite.surjective_of_injective hinjective c

include h in
theorem decrypt_length (block : Bytes) (hblock : block.length = 16) :
    (decryptBlock key block).length = 16 := by
  obtain ⟨b, hb⟩ := h.exists_encrypt key ⟨block, hblock⟩
  obtain rfl : encryptBlock key b.1 = block := congrArg Subtype.val hb
  rw [h.inverse key _ b.2]
  exact b.2

def decrypt (c : Octets) : Octets := ⟨decryptBlock key c.1, h.decrypt_length key c.1 c.2⟩

theorem decrypt_encrypt (b : Octets) : h.decrypt key (h.encrypt key b) = b :=
  Subtype.ext (h.inverse key b.1 b.2)

end Inverts

variable {tail : Bytes}

theorem take_joined (b : Octets) (bs : List Octets) (tail : Bytes) :
    (joined (b :: bs) ++ tail).take 16 = b.1 ∧
      (joined (b :: bs) ++ tail).drop 16 = joined bs ++ tail := by
  have hcons : joined (b :: bs) ++ tail = b.1 ++ (joined bs ++ tail) := by
    rw [joined, List.flatMap_cons, List.append_assoc]
    rfl
  rw [hcons]
  exact ⟨List.take_left' b.2, List.drop_left' b.2⟩

theorem encryptBlocks_joined (prev : Octets) (bs : List Octets) (tail : Bytes) :
    encryptBlocks encryptBlock key bs.length prev.1 (joined bs ++ tail) =
      joined (chain mask (h.encrypt key) prev bs) ++ tail := by
  induction bs generalizing prev with
  | nil => rfl
  | cons b bs ih =>
    obtain ⟨htake, hdrop⟩ := take_joined b bs tail
    have hrest := ih (h.encrypt key (mask b prev))
    rw [List.length_cons, encryptBlocks, htake, hdrop]
    change (h.encrypt key (mask b prev)).1 ++
      encryptBlocks encryptBlock key bs.length (h.encrypt key (mask b prev)).1 _ = _
    rw [hrest, chain, ← List.append_assoc]
    rfl

theorem decryptBlocks_joined (prev : Octets) (cs : List Octets) (tail : Bytes) :
    decryptBlocks decryptBlock key cs.length prev.1 (joined cs ++ tail) =
      joined (unchain mask (h.decrypt key) prev cs) ++ tail := by
  induction cs generalizing prev with
  | nil => rfl
  | cons c cs ih =>
    obtain ⟨htake, hdrop⟩ := take_joined c cs tail
    rw [List.length_cons, decryptBlocks, htake, hdrop, ih c, unchain, ← List.append_assoc]
    rfl

theorem blocks_of_joined (bs : List Octets) (htail : tail.length < 16) :
    (joined bs ++ tail).length / 16 = bs.length := by
  rw [List.length_append, length_joined]
  omega

theorem encryptAudio_joined (iv : Block) (bs : List Octets) (htail : tail.length < 16) :
    encryptAudio encryptBlock (joined bs ++ tail) key iv =
      joined (chain mask (h.encrypt key) ⟨iv.toList, by simp⟩ bs) ++ tail := by
  rw [encryptAudio, blocks_of_joined bs htail]
  exact encryptBlocks_joined h key ⟨iv.toList, by simp⟩ bs tail

theorem decryptAudio_joined (iv : Block) (cs : List Octets) (htail : tail.length < 16) :
    decryptAudio decryptBlock (joined cs ++ tail) key iv =
      joined (unchain mask (h.decrypt key) ⟨iv.toList, by simp⟩ cs) ++ tail := by
  rw [decryptAudio, blocks_of_joined cs htail]
  exact decryptBlocks_joined h key ⟨iv.toList, by simp⟩ cs tail

include h

theorem decrypt_encryptAudio (iv : Block) (payload : Bytes) :
    decryptAudio decryptBlock (encryptAudio encryptBlock payload key iv) key iv = payload := by
  obtain ⟨bs, tail, rfl, htail⟩ := exists_joined payload
  rw [encryptAudio_joined h key iv bs htail, decryptAudio_joined h key iv _ htail,
    unchain_chain mask_cancel (h.decrypt_encrypt key)]

theorem encrypt_decryptAudio (iv : Block) (c : Bytes) :
    encryptAudio encryptBlock (decryptAudio decryptBlock c key iv) key iv = c := by
  obtain ⟨cs, tail, rfl, htail⟩ := exists_joined c
  rw [decryptAudio_joined h key iv cs htail, encryptAudio_joined h key iv _ htail,
    chain_unchain mask_cancel (encrypt_decrypt (h.decrypt_encrypt key))]

/-- The same length, and the same bytes behind the whole blocks. -/
theorem decryptAudio_shape (iv : Block) (c : Bytes) :
    (decryptAudio decryptBlock c key iv).length = c.length ∧
      (decryptAudio decryptBlock c key iv).drop (16 * (c.length / 16)) =
        c.drop (16 * (c.length / 16)) := by
  obtain ⟨cs, tail, rfl, htail⟩ := exists_joined c
  have hlength : (unchain mask (h.decrypt key) ⟨iv.toList, by simp⟩ cs).length = cs.length :=
    length_unchain ..
  have hdrop : ∀ bs : List Octets, bs.length = cs.length →
      (joined bs ++ tail).drop (16 * cs.length) = tail := fun bs hbs =>
    List.drop_left' (by rw [length_joined, hbs])
  rw [decryptAudio_joined h key iv cs htail, blocks_of_joined cs htail, hdrop _ hlength,
    hdrop cs rfl, List.length_append, List.length_append, length_joined, length_joined, hlength]
  exact ⟨rfl, rfl⟩

end Cipher

open Audio Jitter in
/-- The receiver gets back every payload the sender encrypts, of any length, and takes nothing
for anything else; in the audio task that is so whatever packets came before. -/
theorem decryption_restores (encryptBlock decryptBlock : Block → Bytes → Bytes)
    (h : Inverts encryptBlock decryptBlock) (key iv : Block) :
    (∀ payload, decryptAudio decryptBlock (encryptAudio encryptBlock payload key iv) key iv =
        payload ∧ (encryptAudio encryptBlock payload key iv).length = payload.length) ∧
      (∀ c, encryptAudio encryptBlock (decryptAudio decryptBlock c key iv) key iv = c ∧
        (decryptAudio decryptBlock c key iv).length = c.length ∧
        (decryptAudio decryptBlock c key iv).drop (16 * (c.length / 16)) =
          c.drop (16 * (c.length / 16))) ∧
      ∀ (cfg : Config) (inputs : List Input) i packet payload, cfg.params.encrypted = true →
        cfg.params.key = key → cfg.params.iv = iv → i.packet? = some packet →
        packet.payload = encryptAudio encryptBlock payload key iv →
          ((Task.new.run decryptBlock cfg inputs).1.turn decryptBlock cfg i).1.jitter =
            ((Task.new.run decryptBlock cfg inputs).1.jitter.arrive packet.sequence payload).2 := by
  refine ⟨?_, ?_, ?_⟩
  · intro payload
    have hback := decrypt_encryptAudio h key iv payload
    have hlength := (decryptAudio_shape h key iv (encryptAudio encryptBlock payload key iv)).1
    rw [hback] at hlength
    exact ⟨hback, hlength.symm⟩
  · intro c
    exact ⟨encrypt_decryptAudio h key iv c, decryptAudio_shape h key iv c⟩
  · rintro cfg inputs i packet payload hencrypted rfl rfl hpacket hpayload
    have hframe : frameOf decryptBlock cfg packet = payload := by
      rw [frameOf, if_pos hencrypted, hpayload, decrypt_encryptAudio h]
    rw [turn_packet hpacket, takePacket_eq, hframe]

/-- An example vector of AES-128 in CBC mode: its key, its initial vector, two blocks and what they
are encrypted to. -/
def vectorKey : Block :=
  #v[0x2b, 0x7e, 0x15, 0x16, 0x28, 0xae, 0xd2, 0xa6, 0xab, 0xf7, 0x15, 0x88, 0x09, 0xcf, 0x4f, 0x3c]

def vectorIv : Block := #v[0, 1, 2, 3, 4, 5, 6, 7, 8, 9, 10, 11, 12, 13, 14, 15]

def vectorBlock (second : Bool) : Bytes :=
  if second then
    [0xae, 0x2d, 0x8a, 0x57, 0x1e, 0x03, 0xac, 0x9c, 0x9e, 0xb7, 0x6f, 0xac, 0x45, 0xaf, 0x8e, 0x51]
  else
    [0x6b, 0xc1, 0xbe, 0xe2, 0x2e, 0x40, 0x9f, 0x96, 0xe9, 0x3d, 0x7e, 0x11, 0x73, 0x93, 0x17, 0x2a]

def vectorCipher (second : Bool) : Bytes :=
  if second then
    [0x50, 0x86, 0xcb, 0x9b, 0x50, 0x72, 0x19, 0xee, 0x95, 0xdb, 0x11, 0x3a, 0x91, 0x76, 0x78, 0xb2]
  else
    [0x76, 0x49, 0xab, 0xac, 0x81, 0x19, 0xb2, 0x46, 0xce, 0xe9, 0x8e, 0x9b, 0x12, 0xe9, 0x19, 0x7d]

/-- AES at the two blocks as CBC hands them to it, masked by the vector and the block before; it
leaves other blocks alone. -/
def vectorSwaps : Equiv.Perm Bytes :=
  Equiv.swap (List.zipWith (· ^^^ ·) (vectorBlock false) vectorIv.toList) (vectorCipher false) *
    Equiv.swap (List.zipWith (· ^^^ ·) (vectorBlock true) (vectorCipher false)) (vectorCipher true)

def vectorEncrypt (key : Block) (block : Bytes) : Bytes :=
  if key = vectorKey then vectorSwaps block else block

def vectorDecrypt (key : Block) (block : Bytes) : Bytes :=
  if key = vectorKey then vectorSwaps.symm block else block

theorem length_swap {a b block : Bytes} (ha : a.length = 16) (hb : b.length = 16)
    (hblock : block.length = 16) : (Equiv.swap a b block).length = 16 := by
  rw [Equiv.swap_apply_def]
  split
  · exact hb
  · split
    · exact ha
    · exact hblock

theorem vector_inverts : Inverts vectorEncrypt vectorDecrypt where
  length key block hblock := by
    unfold vectorEncrypt
    split
    · exact length_swap (by decide) (by decide) (length_swap (by decide) (by decide) hblock)
    · exact hblock
  inverse key block _ := by
    unfold vectorEncrypt vectorDecrypt
    split
    · exact vectorSwaps.symm_apply_apply block
    · rfl

/-- Both blocks and three bytes behind them. -/
theorem decryption_restores_vector :
    decryptAudio vectorDecrypt (vectorCipher false ++ vectorCipher true ++ [1, 2, 3]) vectorKey
        vectorIv = vectorBlock false ++ vectorBlock true ++ [1, 2, 3] := by
  have hsent : encryptAudio vectorEncrypt (vectorBlock false ++ vectorBlock true ++ [1, 2, 3])
      vectorKey vectorIv = vectorCipher false ++ vectorCipher true ++ [1, 2, 3] := by
    decide +kernel
  have hback := ((decryption_restores vectorEncrypt vectorDecrypt vector_inverts vectorKey
    vectorIv).1 (vectorBlock false ++ vectorBlock true ++ [1, 2, 3])).1
  rwa [hsent] at hback

end OpenAirplay.Rtp
