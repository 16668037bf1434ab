import Mathlib.Data.BitVec

/-! # Addresses and subnets

An IP address is 32 or 128 bits, and a subnet is the addresses that begin with the same bits
as its network.  An IPv4 address also has a place among the IPv6 addresses, where it is
**mapped** to, so a subnet of either family has something to say about addresses of the
other: `covers_mapped` says that it is the same.
-/
namespace Network

/-- The family of an address. -/
inductive Family where
  | ipv4
  | ipv6
  deriving DecidableEq, Repr

/-- An address. -/
inductive IpAddress where
  | v4 (bits : BitVec 32)
  | v6 (bits : BitVec 128)
  deriving DecidableEq

namespace IpAddress

/-- The family of an address. -/
def family : IpAddress → Family
  | .v4 _ => .ipv4
  | .v6 _ => .ipv6

/-- The address that is written `a.b.c.d`. -/
def ofOctets (a b c d : BitVec 8) : IpAddress := .v4 (a ++ b ++ c ++ d)

/-- The address that is written as eight groups of hexadecimal digits. -/
def ofGroups (a b c d e f g h : BitVec 16) : IpAddress :=
  .v6 (a ++ b ++ c ++ d ++ e ++ f ++ g ++ h)

/-- The place of an IPv4 address among the IPv6 addresses: `::ffff:0:0/96`. -/
def mapped (bits : BitVec 32) : BitVec 128 := (0xFFFF#96) ++ bits

/-- The IPv4 address that is mapped to this one. -/
def embedded? (bits : BitVec 128) : Option (BitVec 32) :=
  if bits >>> 32 = 0xFFFF#128 then some (bits.setWidth 32) else none

theorem embedded?_mapped (bits : BitVec 32) : embedded? (mapped bits) = some bits := by
  have hhigh : mapped bits >>> 32 = 0xFFFF#128 := by
    have hlow : bits.toNat >>> 32 = 0 := by
      rw [Nat.shiftRight_eq_div_pow]
      exact Nat.div_eq_of_lt bits.isLt
    apply BitVec.eq_of_toNat_eq
    unfold mapped
    rw [BitVec.toNat_ushiftRight, BitVec.toNat_append, Nat.shiftRight_or_distrib, hlow]
    rfl
  unfold embedded?
  rw [if_pos hhigh]
  exact congrArg some BitVec.setWidth_append_eq_right

end IpAddress

/-- A subnet: a network and how many of its first bits count. -/
structure Subnet where
  network : IpAddress
  prefixLength : Nat

/-- The first `count` bits agree. -/
def samePrefix {w : Nat} (count : Nat) (a b : BitVec w) : Bool :=
  a >>> (w - count) == b >>> (w - count)

/-- Whether an address is in a subnet, be it of its own family or not. -/
def Subnet.covers (subnet : Subnet) (address : IpAddress) : Bool :=
  match subnet.network, address with
  | .v4 network, .v4 bits => samePrefix subnet.prefixLength bits network
  | .v6 network, .v6 bits => samePrefix subnet.prefixLength bits network
  | .v4 network, .v6 bits =>
    match IpAddress.embedded? bits with
    | some embedded => samePrefix subnet.prefixLength embedded network
    | none => false
  | .v6 network, .v4 bits => samePrefix subnet.prefixLength (IpAddress.mapped bits) network

/-- **A mapped address is in a subnet where the address itself is.** -/
theorem covers_mapped (subnet : Subnet) (bits : BitVec 32) :
    subnet.covers (.v6 (IpAddress.mapped bits)) = subnet.covers (.v4 bits) := by
  obtain ⟨network, prefixLength⟩ := subnet
  cases network with
  | v4 network =>
    unfold Subnet.covers
    dsimp only
    rw [IpAddress.embedded?_mapped]
  | v6 network => rfl

end Network
