import Mathlib.Algebra.Order.Ring.Nat
import Mathlib.Data.List.Basic

/-!
# Addresses and error codes

`dmroute_addr_t` is a family tag over a union of address bytes; every place that clears an address
assigns `{ .family = dmroute_family_none }`, which zeroes the bytes as well, so the tag determines
what the union holds.
-/

namespace Dmdhcp

/-- The `errno` values that dmdhcp returns (negated in the source). -/
inductive Errno
  | einval
  | enospc
  | enoent
  | eproto
  | enomem
  | eexist
  | eaddrinuse
  deriving DecidableEq, Repr

/-- The four bytes `addr.v4[0..3]`. -/
structure Ipv4 where
  b0 : UInt8
  b1 : UInt8
  b2 : UInt8
  b3 : UInt8
  deriving DecidableEq, Repr

def Ipv4.bytes (a : Ipv4) : List UInt8 := [a.b0, a.b1, a.b2, a.b3]

def Ipv4.zero : Ipv4 := ⟨0, 0, 0, 0⟩

/-- `dmroute_addr_t`: family `dmroute_family_none`, `_v4` or `_v6`. -/
inductive Addr
  | none
  | v4 (a : Ipv4)
  | v6 (a : Vector UInt8 16)
  deriving DecidableEq, Repr

/-- `addr.family == dmroute_family_v4`. -/
def Addr.isV4 : Addr → Bool
  | .v4 _ => true
  | _ => false

/-- The bytes read through `addr.addr.v4`, whatever the family. -/
def Addr.raw : Addr → Ipv4
  | .none => .zero
  | .v4 a => a
  | .v6 a => ⟨a[0], a[1], a[2], a[3]⟩

/-- `dmnetif_iface_t`: an interface handle. -/
abbrev Iface := Nat

/-- `255.255.255.255`, the destination of every broadcast send. -/
def limitedBroadcast : Addr := .v4 ⟨255, 255, 255, 255⟩

/-- The directed broadcast address `ip | ~netmask`, byte by byte. -/
def directedBroadcast (ip netmask : Ipv4) : Ipv4 :=
  ⟨ip.b0 ||| ~~~netmask.b0, ip.b1 ||| ~~~netmask.b1,
    ip.b2 ||| ~~~netmask.b2, ip.b3 ||| ~~~netmask.b3⟩

end Dmdhcp
