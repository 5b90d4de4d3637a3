import OpenAirplay.Text

/-!
# Digests, challenges and the session key

The MD5, RSA and base64 crates are parameters, as is the standard library's `f32` parser.
-/

namespace OpenAirplay

open Text

set_option autoImplicit false

/-- What the receiver takes from outside itself. `rsaSign` and `rsaDecrypt` use the
receiver's private key. -/
structure Crates where
  md5 : Bytes → Vector UInt8 16
  base64Encode : Bytes → String
  base64EncodeNoPad : Bytes → String
  base64DecodeNoPad : String → Option Bytes
  rsaSign : Bytes → Bytes
  rsaDecrypt : Bytes → Option Bytes
  parseF32 : String → Option (BitVec 32)

namespace Crypto

def hexDigit (n : Nat) : Char := if n < 10 then Char.ofNat (48 + n) else Char.ofNat (87 + n)

def hexByte (b : UInt8) : List Char := [hexDigit (b.toNat / 16), hexDigit (b.toNat % 16)]

section Digest

variable (crates : Crates)

/-- Lowercase hex of the MD5 digest of the concatenated parts. -/
def md5Hex (parts : List Bytes) : String :=
  .ofList ((crates.md5 parts.flatten).toList.flatMap hexByte)

/-- The RFC 2617 response for the classic AirPlay 1 password. -/
def digestResponse (username realm password method uri nonce : String) : String :=
  let ha1 := md5Hex crates [utf8 username, utf8 ":", utf8 realm, utf8 ":", utf8 password]
  let ha2 := md5Hex crates [utf8 method, utf8 ":", utf8 uri]
  md5Hex crates [utf8 ha1, utf8 ":", utf8 nonce, utf8 ":", utf8 ha2]

/-- A comparison that looks at every byte. -/
def ctEqHex (expected provided : String) : Bool :=
  let e := utf8 expected
  let p := utf8 provided
  if e.length != p.length then false
  else (List.zipWith (· ^^^ ·) e p).foldl (· ||| ·) 0 == 0

def toIpv4Mapped (octets : Vector UInt8 16) : Option Bytes :=
  if octets.toList.take 12 = [0, 0, 0, 0, 0, 0, 0, 0, 0, 0, 0xff, 0xff] then
    some (octets.toList.drop 12)
  else none

def ipBytes : IpAddr → Bytes
  | .v4 octets => octets.toList
  | .v6 octets => (toIpv4Mapped octets).getD octets.toList

inductive ChallengeError where
  | invalidBase64
  | oversized (n : Nat)
  deriving DecidableEq

/-- The `Apple-Response` to a challenge: challenge, address and MAC, signed. -/
def appleResponse (challenge : String) (localIp : IpAddr) (mac : Vector UInt8 6) :
    Except ChallengeError String :=
  match crates.base64DecodeNoPad (trimEndMatches (trim challenge) '=') with
  | none => .error .invalidBase64
  | some challenge =>
    if 16 < challenge.length then .error (.oversized challenge.length)
    else
      let buf := challenge ++ ipBytes localIp ++ mac.toList
      let buf := buf ++ List.replicate (32 - buf.length) 0
      .ok (crates.base64EncodeNoPad (crates.rsaSign buf))

def toBlock (bytes : Bytes) : Option (Vector UInt8 16) :=
  if h : bytes.toArray.size = 16 then some ⟨bytes.toArray, h⟩ else none

inductive KeyError where
  | decrypt
  | wrongLength (n : Nat)
  deriving DecidableEq

def KeyError.toString : KeyError → String
  | .decrypt => "rsaaeskey failed RSA-OAEP decryption"
  | .wrongLength n => "decrypted AES key is " ++ Nat.repr n ++ " bytes, wanted 16"

def decryptAesKey (ciphertext : Bytes) : Except KeyError (Vector UInt8 16) :=
  match crates.rsaDecrypt ciphertext with
  | none => .error .decrypt
  | some plaintext =>
    match toBlock plaintext with
    | none => .error (.wrongLength plaintext.length)
    | some key => .ok key

end Digest

theorem foldl_or_eq_zero (bytes : Bytes) (acc : UInt8) :
    bytes.foldl (· ||| ·) acc = 0 ↔ acc = 0 ∧ ∀ b ∈ bytes, b = 0 := by
  induction bytes generalizing acc with
  | nil => simp
  | cons b bytes ih => simp [ih, and_assoc]

theorem zipWith_xor_eq_zero {e p : Bytes} (hlen : e.length = p.length) :
    (∀ b ∈ List.zipWith (· ^^^ ·) e p, b = 0) ↔ e = p := by
  induction e generalizing p with
  | nil => cases p <;> simp_all
  | cons x e ih =>
    cases p with
    | nil => simp at hlen
    | cons y p => simp [ih (Nat.succ.inj hlen)]

theorem utf8_injective {s t : String} (h : utf8 s = utf8 t) : s = t := by
  apply String.toByteArray_inj.mp
  exact ByteArray.ext (Array.toList_inj.mp h)

theorem ctEqHex_iff {expected provided : String} :
    ctEqHex expected provided = true ↔ expected = provided := by
  simp only [ctEqHex]
  split
  · rename_i hlen
    constructor
    · intro h
      cases h
    · rintro rfl
      simp at hlen
  · rename_i hlen
    have hlen' : (utf8 expected).length = (utf8 provided).length := by simpa using hlen
    rw [beq_iff_eq, foldl_or_eq_zero, zipWith_xor_eq_zero hlen']
    constructor
    · rintro ⟨_, h⟩
      exact utf8_injective h
    · rintro rfl
      exact ⟨rfl, rfl⟩

end Crypto

end OpenAirplay
