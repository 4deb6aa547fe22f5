import ContainerUsage.Text.Decimal
import ContainerUsage.Text.Reader
/-!
# IPv4 addresses

An IPv4 address is four bytes.  It is written as four decimal numbers with dots between them, none
of which starts with a zero unless it is zero.
-/

namespace ContainerUsage

/-- An IPv4 address. -/
structure Ipv4 where
  a : UInt8
  b : UInt8
  c : UInt8
  d : UInt8
  deriving DecidableEq, Repr

namespace Ipv4

open Text (Reader)

/-- Reads one of the four numbers. -/
def readByte : Reader UInt8 := fun s =>
  (Reader.number ⟨10, some 3, false, UInt8.size⟩ s).map fun r => (r.1.toUInt8, r.2)

/-- Reads an address. -/
def read : Reader Ipv4 := fun s => do
  let (a, s) ← readByte s
  let (_, s) ← Reader.char '.' s
  let (b, s) ← readByte s
  let (_, s) ← Reader.char '.' s
  let (c, s) ← readByte s
  let (_, s) ← Reader.char '.' s
  let (d, s) ← readByte s
  return (⟨a, b, c, d⟩, s)

/-- The text of an address. -/
def print (ip : Ipv4) : String :=
  ".".intercalate ([ip.a, ip.b, ip.c, ip.d].map fun n => Decimal.print n.toNat)

/-! ## As a pair of groups -/

/-- The two groups of sixteen bits that an address takes up. -/
def groups (ip : Ipv4) : List UInt16 :=
  [ip.a.toUInt16 * 256 + ip.b.toUInt16, ip.c.toUInt16 * 256 + ip.d.toUInt16]

/-- The address that takes up two groups. -/
def ofGroups (high low : UInt16) : Ipv4 :=
  ⟨(high / 256).toUInt8, (high % 256).toUInt8, (low / 256).toUInt8, (low % 256).toUInt8⟩

end Ipv4

end ContainerUsage
