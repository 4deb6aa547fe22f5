import ContainerUsage.Net.Ipv6
/-!
# Socket addresses

A socket address is an IP address and a port.  An IPv6 address stands in brackets and may be
followed by a scope in them.  Host names are not looked up.

`parse?` reads an address, which has to be the whole text, and `print` writes one.
-/

namespace ContainerUsage

/-- An IP address with a port. -/
inductive SocketAddress where
  | v4 (ip : Ipv4) (port : UInt16)
  | v6 (ip : Ipv6) (scope : UInt32) (port : UInt16)
  deriving DecidableEq

namespace SocketAddress

open Text (Reader)

/-- Reads a port. -/
def readPort : Reader UInt16 := fun s => do
  let (_, s) ← Reader.char ':' s
  let (n, s) ← Reader.number ⟨10, none, true, UInt16.size⟩ s
  return (n.toUInt16, s)

/-- Reads a scope, which is zero if there is none. -/
def readScope (s : List Char) : UInt32 × List Char :=
  let found := do
    let (_, rest) ← Reader.char '%' s
    let (n, rest) ← Reader.number ⟨10, none, true, UInt32.size⟩ rest
    return (n.toUInt32, rest)
  found.getD (0, s)

/-- Reads an address with an IPv4 address. -/
def readV4 : Reader SocketAddress := fun s => do
  let (ip, s) ← Ipv4.read s
  let (port, s) ← readPort s
  return (.v4 ip port, s)

/-- Reads an address with an IPv6 address. -/
def readV6 : Reader SocketAddress := fun s => do
  let (_, s) ← Reader.char '[' s
  let (ip, s) ← Ipv6.read s
  let (scope, s) := readScope s
  let (_, s) ← Reader.char ']' s
  let (port, s) ← readPort s
  return (.v6 ip scope port, s)

/-- The address that a text stands for. -/
def parse? (text : String) : Option SocketAddress :=
  match (readV4 text.toList).or (readV6 text.toList) with
  | some (address, []) => some address
  | _ => none

/-- The text of an address.  The scope zero is not written. -/
def print : SocketAddress → String
  | .v4 ip port => ip.print ++ ":" ++ Decimal.print port.toNat
  | .v6 ip scope port =>
    let zone := if scope = 0 then "" else "%" ++ Decimal.print scope.toNat
    "[" ++ ip.print ++ zone ++ "]:" ++ Decimal.print port.toNat

end SocketAddress

end ContainerUsage
