import Mathlib.Data.BitVec
import Mathlib.Tactic

/-!
# Machine integers and datagrams

The fixed-width integers of the wire formats and their big-endian reads. A datagram
is the list of its bytes.
-/

namespace OpenAirplay

set_option autoImplicit false

abbrev U16 := BitVec 16
abbrev U32 := BitVec 32
abbrev Bytes := List UInt8

def u16FromBe (b0 b1 : UInt8) : U16 := BitVec.ofNat 16 (b0.toNat * 2 ^ 8 + b1.toNat)

def u32FromBe (b0 b1 b2 b3 : UInt8) : U32 :=
  BitVec.ofNat 32 (b0.toNat * 2 ^ 24 + b1.toNat * 2 ^ 16 + b2.toNat * 2 ^ 8 + b3.toNat)

def byteAt (n place : Nat) : UInt8 := UInt8.ofNat (n / 2 ^ place)

def u16ToBe (n : U16) : Bytes := [byteAt n.toNat 8, byteAt n.toNat 0]

def u32ToBe (n : U32) : Bytes :=
  [byteAt n.toNat 24, byteAt n.toNat 16, byteAt n.toNat 8, byteAt n.toNat 0]

inductive IpAddr where
  | v4 (octets : Vector UInt8 4)
  | v6 (octets : Vector UInt8 16)
  deriving DecidableEq

structure SocketAddr where
  ip : IpAddr
  port : U16
  deriving DecidableEq

theorem byteAt_toNat (n place : Nat) : (byteAt n place).toNat = n / 2 ^ place % 2 ^ 8 := by
  simp [byteAt]

theorem u16FromBe_toBe (n : U16) : u16FromBe (byteAt n.toNat 8) (byteAt n.toNat 0) = n := by
  have hn := n.isLt
  apply BitVec.eq_of_toNat_eq
  simp only [u16FromBe, BitVec.toNat_ofNat, byteAt_toNat]
  omega

theorem u32FromBe_toBe (n : U32) :
    u32FromBe (byteAt n.toNat 24) (byteAt n.toNat 16) (byteAt n.toNat 8) (byteAt n.toNat 0) = n := by
  have hn := n.isLt
  apply BitVec.eq_of_toNat_eq
  simp only [u32FromBe, BitVec.toNat_ofNat, byteAt_toNat]
  omega

theorem u32ToBe_fromBe (b0 b1 b2 b3 : UInt8) : u32ToBe (u32FromBe b0 b1 b2 b3) = [b0, b1, b2, b3] := by
  have h0 := b0.toNat_lt
  have h1 := b1.toNat_lt
  have h2 := b2.toNat_lt
  have h3 := b3.toNat_lt
  simp only [u32ToBe, u32FromBe, BitVec.toNat_ofNat, List.cons.injEq, and_true]
  refine ⟨?_, ?_, ?_, ?_⟩ <;> apply UInt8.toNat_inj.mp <;> rw [byteAt_toNat] <;> omega

end OpenAirplay
